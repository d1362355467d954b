import Mathlib.Logic.Function.Basic
import TelemetryNode.Library.KnownBits
import TelemetryNode.Library.TransitionSystem

/-!
# Programs on device registers

Programs that store to the registers of devices and poll them, while the hardware changes some of
their bits at any time. A program boots once and then makes passes through a loop for ever. What is
known of the registers is followed through the program bit by bit, and a check of the program by
evaluation shows that certain fields have their values whenever a statement is reached.

## Main definitions

* `RegisterProgram.Device`: what a store does to each register, and what the hardware does.
* `RegisterProgram.Statement`: the statements, with `Statement.run` as their meaning.
* `RegisterProgram.system`: all interleavings of a program with the hardware.
* `RegisterProgram.safe`: the check.

## Main results

* `RegisterProgram.holds_of_safe`: in every state that a checked program reaches, the fields that
  its next statement requires have their values.
-/

namespace RegisterProgram

open KnownBits

/-- The registers: how they answer to a store, and which of their bits the hardware changes. -/
structure Device (ρ : Type*) (w : ℕ) where
  /-- The bits that are cleared by storing a one, and kept by storing a zero. -/
  clearedByOne : ρ → BitVec w
  /-- The bits that are set by storing a one, and kept by storing a zero. -/
  setByOne : ρ → BitVec w
  /-- The bits that the hardware may set. -/
  rising : ρ → BitVec w
  /-- The bits that the hardware may clear. -/
  falling : ρ → BitVec w

/-- The statements of a program. What the data `δ` are is decided elsewhere. -/
inductive Statement (ρ : Type*) (w : ℕ) (δ : Type*)
  /-- `*r = (*r & ~clear) | set`. -/
  | store (r : ρ) (clear set : BitVec w)
  /-- `*r = data`. -/
  | copy (r : ρ) (data : δ)
  /-- Poll until `(*r & mask) == value`. -/
  | await (r : ρ) (mask value : BitVec w)
  /-- Wait for something that is not in a register. -/
  | pause
  deriving DecidableEq

/-- A field of a register, with a value. -/
structure Field (ρ : Type*) (w : ℕ) where
  reg : ρ
  mask : BitVec w
  value : BitVec w
  deriving DecidableEq

variable {ρ δ π : Type*} {w : ℕ}

/-- The field has the value. -/
def Field.Holds (f : Field ρ w) (regs : ρ → BitVec w) : Prop := regs f.reg &&& f.mask = f.value

/-! ## The meaning of programs -/

/-- The register after a store of `x`. -/
def Device.write (d : Device ρ w) (r : ρ) (old x : BitVec w) : BitVec w :=
  (x &&& ~~~d.clearedByOne r &&& ~~~d.setByOne r) |||
    (old &&& ~~~x &&& d.clearedByOne r) ||| ((old ||| x) &&& d.setByOne r)

variable [DecidableEq ρ]

/-- The registers after a statement, if it is not a poll that has to be repeated. -/
def Statement.run (d : Device ρ w) (value : δ → BitVec w) (regs : ρ → BitVec w) :
    Statement ρ w δ → Option (ρ → BitVec w)
  | .store r clear set =>
    some (Function.update regs r (d.write r (regs r) ((regs r &&& ~~~clear) ||| set)))
  | .copy r data => some (Function.update regs r (d.write r (regs r) (value data)))
  | .await r mask x => if regs r &&& mask = x then some regs else none
  | .pause => some regs

/-- The registers, and the rest of the program up to the end of the boot or of the pass. -/
structure State (ρ : Type*) (w : ℕ) (δ : Type*) where
  regs : ρ → BitVec w
  /-- The boot is over. -/
  booted : Bool
  todo : List (Statement ρ w δ)

/-- The moves. -/
inductive Move (ρ : Type*) (w : ℕ) (π : Type*)
  /-- The program executes its next statement. -/
  | statement
  /-- The program begins a pass through its loop. -/
  | pass (p : π)
  /-- The hardware changes a register. -/
  | hardware (r : ρ) (x : BitVec w)

/-- The state after a move, if it is possible. -/
def State.step (d : Device ρ w) (value : δ → BitVec w) (body : π → List (Statement ρ w δ))
    (s : State ρ w δ) : Move ρ w π → Option (State ρ w δ)
  | .statement =>
    match s.todo with
    | [] => none
    | stmt :: todo => (stmt.run d value s.regs).map fun regs => { s with regs, todo }
  | .pass p => if s.todo = [] then some { s with booted := true, todo := body p } else none
  | .hardware r x =>
    if Drifts (d.rising r) (d.falling r) (s.regs r) x then
      some { s with regs := Function.update s.regs r x }
    else none

/-- All interleavings of a program with the hardware, from registers with some known fields. -/
def system (d : Device ρ w) (value : δ → BitVec w) (atReset : List (Field ρ w))
    (boot : List (Statement ρ w δ)) (body : π → List (Statement ρ w δ)) :
    TransitionSystem (State ρ w δ) (Move ρ w π) where
  init s := (∀ f ∈ atReset, f.Holds s.regs) ∧ s.booted = false ∧ s.todo = boot
  step := State.step d value body

/-! ## What is known of the registers -/

/-- The bits that `*r = (*r & ~clear) | set` clears. -/
def Device.clears (d : Device ρ w) (r : ρ) (clear set : BitVec w) : BitVec w :=
  ((clear &&& ~~~d.clearedByOne r) ||| ((~~~clear ||| set) &&& d.clearedByOne r)) &&&
    ~~~d.setByOne r

/-- The bits that `*r = (*r & ~clear) | set` sets. -/
def Device.sets (d : Device ρ w) (r : ρ) (set : BitVec w) : BitVec w :=
  set &&& (~~~d.clearedByOne r ||| d.setByOne r)

omit [DecidableEq ρ] in
/-- A store of a modified value clears some bits and sets some, whatever the register is. -/
theorem write_modified (d : Device ρ w) (r : ρ) (old clear set : BitVec w) :
    d.write r old ((old &&& ~~~clear) ||| set) =
      (old &&& ~~~d.clears r clear set) ||| d.sets r set := by
  refine BitVec.eq_of_getElem_eq fun i hi => ?_
  simp only [Device.write, Device.clears, Device.sets, BitVec.getElem_or, BitVec.getElem_and,
    BitVec.getElem_not]
  cases old[i] <;> cases clear[i] <;> cases set[i] <;> cases (d.clearedByOne r)[i] <;> simp

/-- What is known of each register. -/
abbrev Knowledge (ρ : Type*) (w : ℕ) := ρ → KnownBits w

/-- All of it is true. -/
def Knowledge.Agrees (k : Knowledge ρ w) (regs : ρ → BitVec w) : Prop :=
  ∀ r, (k r).Contains (regs r)

/-- The hardware does not change what is known. -/
def Knowledge.Stable (d : Device ρ w) (k : Knowledge ρ w) : Prop :=
  ∀ r x y, (k r).Contains x → Drifts (d.rising r) (d.falling r) x y → (k r).Contains y

variable {d : Device ρ w} {k : Knowledge ρ w} {regs : ρ → BitVec w}

/-- What becomes known of a register, as far as the hardware does not change it. -/
def Knowledge.learn (d : Device ρ w) (k : Knowledge ρ w) (r : ρ) (bits : KnownBits w) :
    Knowledge ρ w :=
  Function.update k r (bits.release (d.rising r) (d.falling r))

theorem Knowledge.Agrees.update (h : k.Agrees regs) {r : ρ} {bits : KnownBits w} {x : BitVec w}
    (hx : bits.Contains x) :
    Knowledge.Agrees (Function.update k r bits) (Function.update regs r x) := by
  intro r'
  by_cases hr : r' = r
  · subst hr
    rwa [Function.update_self, Function.update_self]
  · rw [Function.update_of_ne hr, Function.update_of_ne hr]
    exact h r'

theorem Knowledge.Agrees.learn (h : k.Agrees regs) {r : ρ} {bits : KnownBits w} {x : BitVec w}
    (hx : bits.Contains x) : (k.learn d r bits).Agrees (Function.update regs r x) :=
  h.update (hx.release _ _)

theorem Knowledge.Stable.learn (h : k.Stable d) (r : ρ) (bits : KnownBits w) :
    (k.learn d r bits).Stable d := by
  intro r' x y hx hdrift
  by_cases hr : r' = r
  · subst hr
    rw [Knowledge.learn, Function.update_self] at hx ⊢
    exact contains_release_of_drift hx hdrift
  · rw [Knowledge.learn, Function.update_of_ne hr] at hx ⊢
    exact h r' x y hx hdrift

/-- What is known of the registers when some fields have their values. -/
def Knowledge.ofFields (d : Device ρ w) : List (Field ρ w) → Knowledge ρ w
  | [] => fun _ => unknown
  | f :: fields =>
    let k := Knowledge.ofFields d fields
    k.learn d f.reg ((k f.reg).learn f.mask f.value)

theorem Knowledge.agrees_ofFields {fields : List (Field ρ w)} (h : ∀ f ∈ fields, f.Holds regs) :
    (Knowledge.ofFields d fields).Agrees regs := by
  induction fields with
  | nil =>
    intro r
    exact contains_unknown _
  | cons f fields ih =>
    have hrest := ih fun f hf => h f (List.mem_cons_of_mem _ hf)
    have hf := (hrest f.reg).learn (h f List.mem_cons_self)
    have hagrees := hrest.learn (d := d) (r := f.reg) hf
    rwa [Function.update_eq_self] at hagrees

theorem Knowledge.stable_ofFields (fields : List (Field ρ w)) :
    (Knowledge.ofFields d fields).Stable d := by
  induction fields with
  | nil =>
    intro r x y _ _
    exact contains_unknown _
  | cons f fields ih => exact ih.learn _ _

/-! ## The check -/

/-- What is known after a statement. -/
def Statement.infer (d : Device ρ w) (k : Knowledge ρ w) : Statement ρ w δ → Knowledge ρ w
  | .store r clear set => k.learn d r ((k r).modify (d.clears r clear set) (d.sets r set))
  | .copy r _ => k.learn d r unknown
  | .await r mask x =>
    -- nothing is learnt from bits that change all the time
    if Within mask (d.rising r &&& d.falling r) then k else k.learn d r ((k r).learn mask x)
  | .pause => k

theorem Statement.infer_await {r : ρ} {mask x : BitVec w}
    (h : Within mask (d.rising r &&& d.falling r)) :
    (Statement.await r mask x : Statement ρ w δ).infer d k = k := if_pos h

theorem Statement.agrees_infer {value : δ → BitVec w} {stmt : Statement ρ w δ}
    {regs' : ρ → BitVec w} (h : k.Agrees regs) (hrun : stmt.run d value regs = some regs') :
    (stmt.infer d k).Agrees regs' := by
  cases stmt with
  | store r clear set =>
    cases hrun
    rw [write_modified]
    exact h.learn ((h r).modify _ _)
  | copy r data =>
    cases hrun
    exact h.learn (contains_unknown _)
  | await r mask x =>
    obtain ⟨hx, hsame⟩ := Option.ite_none_right_eq_some.mp hrun
    cases hsame
    rw [Statement.infer]
    split
    · exact h
    · have hagrees := h.learn (d := d) (r := r) ((h r).learn hx)
      rwa [Function.update_eq_self] at hagrees
  | pause =>
    cases hrun
    exact h

theorem Statement.stable_infer (h : k.Stable d) (stmt : Statement ρ w δ) :
    (stmt.infer d k).Stable d := by
  cases stmt with
  | store | copy => exact h.learn _ _
  | await r mask x =>
    rw [Statement.infer]
    split
    · exact h
    · exact h.learn _ _
  | pause => exact h

/-- The fields are known to have their values. -/
def Knowledge.knowsAll (k : Knowledge ρ w) (fields : List (Field ρ w)) : Bool :=
  fields.all fun f => (k f.reg).Knows f.mask f.value

omit [DecidableEq ρ] in
theorem Knowledge.holds_of_knowsAll {fields : List (Field ρ w)} (hk : k.knowsAll fields = true)
    (h : k.Agrees regs) : ∀ f ∈ fields, f.Holds regs := by
  intro f hf
  have hknows := List.all_eq_true.mp hk f hf
  exact (of_decide_eq_true hknows).eq (h f.reg)

/-- Every statement finds known what it requires, and so does the next pass at the end. -/
def safe (d : Device ρ w) (required : Statement ρ w δ → List (Field ρ w))
    (atPass : List (Field ρ w)) : Knowledge ρ w → List (Statement ρ w δ) → Bool
  | k, [] => k.knowsAll atPass
  | k, stmt :: todo => k.knowsAll (required stmt) && safe d required atPass (stmt.infer d k) todo

/-- A statement from which nothing is learnt is checked once, however often it is repeated. -/
theorem safe_repeat {required : Statement ρ w δ → List (Field ρ w)} {atPass : List (Field ρ w)}
    {stmt : Statement ρ w δ} (hsame : ∀ k : Knowledge ρ w, stmt.infer d k = k) (n : ℕ)
    (before rest : List (Statement ρ w δ))
    (h : safe d required atPass k (before ++ stmt :: rest) = true) :
    safe d required atPass k (before ++ (List.replicate n stmt ++ rest)) = true := by
  induction before generalizing k with
  | nil =>
    rw [List.nil_append, safe, hsame, Bool.and_eq_true] at h
    rw [List.nil_append]
    induction n with
    | zero => exact h.2
    | succ n ih =>
      rw [List.replicate_succ, List.cons_append, safe, hsame, Bool.and_eq_true]
      exact ⟨h.1, ih⟩
  | cons first before ih =>
    rw [List.cons_append, safe, Bool.and_eq_true] at h ⊢
    exact ⟨h.1, ih h.2⟩

/-- The registers agree with something that is known and with which the rest of the program is
safe. -/
def Inv (d : Device ρ w) (required : Bool → Statement ρ w δ → List (Field ρ w))
    (atPass : List (Field ρ w)) (s : State ρ w δ) : Prop :=
  ∃ k : Knowledge ρ w, k.Stable d ∧ k.Agrees s.regs ∧
    safe d (required s.booted) atPass k s.todo = true

variable {value : δ → BitVec w} {required : Bool → Statement ρ w δ → List (Field ρ w)}
  {atReset atPass : List (Field ρ w)} {boot : List (Statement ρ w δ)}
  {body : π → List (Statement ρ w δ)} {s s' : State ρ w δ}

theorem inv_step
    (hbody : ∀ p, safe d (required true) atPass (.ofFields d atPass) (body p) = true)
    (h : Inv d required atPass s) {m : Move ρ w π} (hstep : s.step d value body m = some s') :
    Inv d required atPass s' := by
  obtain ⟨k, hstable, hagrees, hsafe⟩ := h
  cases m with
  | statement =>
    simp only [State.step] at hstep
    split at hstep
    · cases hstep
    · rename_i stmt todo htodo
      obtain ⟨regs, hrun, rfl⟩ := Option.map_eq_some_iff.mp hstep
      rw [htodo, safe, Bool.and_eq_true] at hsafe
      exact ⟨stmt.infer d k, stmt.stable_infer hstable, stmt.agrees_infer hagrees hrun, hsafe.2⟩
  | pass p =>
    obtain ⟨htodo, hsome⟩ := Option.ite_none_right_eq_some.mp hstep
    cases hsome
    rw [htodo] at hsafe
    -- only what the end of a pass guarantees is carried into the next one
    exact ⟨.ofFields d atPass, Knowledge.stable_ofFields _,
      Knowledge.agrees_ofFields (Knowledge.holds_of_knowsAll hsafe hagrees), hbody p⟩
  | hardware r x =>
    obtain ⟨hdrift, hsome⟩ := Option.ite_none_right_eq_some.mp hstep
    cases hsome
    refine ⟨k, hstable, ?_, hsafe⟩
    have hx := hstable r _ x (hagrees r) hdrift
    have hupdate := hagrees.update (r := r) hx
    rwa [Function.update_eq_self] at hupdate

/-- In every state that a checked program reaches, the fields that its next statement requires have
their values, and at the end of the boot and of each pass those that a pass begins with. -/
theorem holds_of_safe
    (hboot : safe d (required false) atPass (.ofFields d atReset) boot = true)
    (hbody : ∀ p, safe d (required true) atPass (.ofFields d atPass) (body p) = true)
    (h : (system d value atReset boot body).Reachable s) :
    (∀ stmt todo, s.todo = stmt :: todo → ∀ f ∈ required s.booted stmt, f.Holds s.regs) ∧
      (s.todo = [] → ∀ f ∈ atPass, f.Holds s.regs) := by
  have hinv : Inv d required atPass s := by
    apply h.invariant (I := Inv d required atPass)
    · rintro s ⟨hreset, hbooted, htodo⟩
      refine ⟨.ofFields d atReset, Knowledge.stable_ofFields _, Knowledge.agrees_ofFields hreset,
        ?_⟩
      rw [hbooted, htodo]
      exact hboot
    · intro s m s' hinv hstep
      exact inv_step hbody hinv hstep
  obtain ⟨k, -, hagrees, hsafe⟩ := hinv
  constructor
  · intro stmt todo htodo
    rw [htodo, safe, Bool.and_eq_true] at hsafe
    exact Knowledge.holds_of_knowsAll hsafe.1 hagrees
  · intro htodo
    rw [htodo] at hsafe
    exact Knowledge.holds_of_knowsAll hsafe hagrees

end RegisterProgram
