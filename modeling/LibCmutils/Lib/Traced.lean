import Mathlib.Tactic.Basic

/-!
Computations that record the states they pass through.

* `Traced`: the result of a computation, and the states it has visited. It is a monad;
  computations without states are lifted into it.
* `result_bind`, `result_lift` and so on: the result is that of the computation without the
  record.
* `Runs`: every state visited has a property, a result has a property, and so has an error.
  `Runs.bind`, `Runs.mono` and the other rules build it along a program.
-/

namespace LibCmutils

/-- The result of a computation, and the states it has visited. -/
structure Traced (σ ε α : Type) where
  result : Except ε α
  visited : List σ

namespace Traced

variable {σ ε α β : Type}

/-- A computation that visits no state. -/
def lift (x : Except ε α) : Traced σ ε α := ⟨x, []⟩

/-- An error. -/
def fail (e : ε) : Traced σ ε α := ⟨.error e, []⟩

/-- A state is visited. -/
def visit (s : σ) : Traced σ ε Unit := ⟨.ok (), [s]⟩

/-- One computation after the other. -/
def andThen (x : Traced σ ε α) (f : α → Traced σ ε β) : Traced σ ε β :=
  match x.result with
  | .ok a => ⟨(f a).result, x.visited ++ (f a).visited⟩
  | .error e => ⟨.error e, x.visited⟩

instance : Monad (Traced σ ε) where
  pure a := ⟨.ok a, []⟩
  bind := andThen

instance : MonadLift (Except ε) (Traced σ ε) := ⟨lift⟩

/-- A partial computation, stuck where it is `none`. -/
def orStuck : Option α → Except Unit α
  | some a => .ok a
  | none => .error ()

instance : MonadLift Option (Traced σ Unit) := ⟨fun x => lift (orStuck x)⟩

/-! ### The result -/

variable {x : Traced σ ε α} {f : α → Traced σ ε β}

@[simp] lemma result_pure (a : α) : (pure a : Traced σ ε α).result = pure a := rfl

@[simp] lemma result_fail (e : ε) : (fail e : Traced σ ε α).result = .error e := rfl

@[simp] lemma result_visit (s : σ) : (visit s : Traced σ ε Unit).result = pure () := rfl

@[simp] lemma result_lift (y : Except ε α) : (liftM y : Traced σ ε α).result = y := rfl

@[simp] lemma result_bind : (x >>= f).result = x.result >>= fun a => (f a).result := by
  change (andThen x f).result = _
  rw [andThen]
  cases x.result <;> rfl

@[simp] lemma result_liftOption (y : Option α) : (liftM y : Traced σ Unit α).result = orStuck y := rfl

@[simp] lemma orStuck_some (a : α) : orStuck (some a) = pure a := rfl

@[simp] lemma orStuck_none : (orStuck none : Except Unit α) = .error () := rfl

@[simp] lemma orStuck_bind (y : Option α) (g : α → Option β) :
    orStuck (y.bind g) = orStuck y >>= fun a => orStuck (g a) := by
  cases y <;> rfl

@[simp] lemma result_ite {c : Prop} [Decidable c] (x y : Traced σ ε α) :
    (if c then x else y).result = if c then x.result else y.result := apply_ite _ _ _ _

@[simp] lemma orStuck_ite {c : Prop} [Decidable c] (x y : Option α) :
    orStuck (if c then x else y) = if c then orStuck x else orStuck y := apply_ite _ _ _ _

lemma visited_bind_ok {a : α} (h : x.result = .ok a) :
    (x >>= f).visited = x.visited ++ (f a).visited := by
  change (andThen x f).visited = _
  rw [andThen, h]

lemma visited_bind_error {e : ε} (h : x.result = .error e) : (x >>= f).visited = x.visited := by
  change (andThen x f).visited = _
  rw [andThen, h]

/-! ### Rules -/

/-- The states visited have the property `P`, a result has `Q`, an error has `E`. -/
structure Runs (P : σ → Prop) (E : ε → Prop) (x : Traced σ ε α) (Q : α → Prop) : Prop where
  visited : ∀ s ∈ x.visited, P s
  ok : ∀ a, x.result = .ok a → Q a
  error : ∀ e, x.result = .error e → E e

variable {P : σ → Prop} {E : ε → Prop} {Q : α → Prop} {R : β → Prop}

namespace Runs

lemma pure {a : α} (h : Q a) : Runs P E (Pure.pure a) Q where
  visited := fun _ hs => absurd hs List.not_mem_nil
  ok := fun _ ha => Except.ok.inj ha ▸ h
  error := fun _ he => nomatch he

lemma fail {e : ε} (h : E e) : Runs P E (Traced.fail e : Traced σ ε α) Q where
  visited := fun _ hs => absurd hs List.not_mem_nil
  ok := fun _ ha => nomatch ha
  error := fun _ he => Except.error.inj he ▸ h

lemma lift {y : Except ε α} (hok : ∀ a, y = .ok a → Q a) (herror : ∀ e, y = .error e → E e) :
    Runs P E (liftM y : Traced σ ε α) Q where
  visited := fun _ hs => absurd hs List.not_mem_nil
  ok := hok
  error := herror

lemma liftOption {P : σ → Prop} {E : Unit → Prop} {y : Option α} {a : α} (hy : y = some a)
    (ha : Q a) : Runs P E (liftM y : Traced σ Unit α) Q :=
  lift (y := orStuck y) (fun b hb => by
    rw [hy] at hb
    exact Except.ok.inj hb ▸ ha) fun e he => by
      rw [hy] at he
      cases he

lemma visit {s : σ} (h : P s) : Runs P E (Traced.visit s : Traced σ ε Unit) fun _ => True where
  visited := fun _ hs => List.mem_singleton.mp hs ▸ h
  ok := fun _ _ => trivial
  error := fun _ he => nomatch he

/-- The rule for one computation after the other. -/
lemma bind (hx : Runs P E x Q) (hf : ∀ a, Q a → Runs P E (f a) R) : Runs P E (x >>= f) R := by
  cases hresult : x.result with
  | error e =>
      refine ⟨?_, fun b hb => ?_, fun e' he => ?_⟩
      · rw [visited_bind_error hresult]
        exact hx.visited
      · rw [result_bind, hresult] at hb
        cases hb
      · rw [result_bind, hresult] at he
        obtain rfl : e = e' := Except.error.inj he
        exact hx.error e hresult
  | ok a =>
      have hfa := hf a (hx.ok a hresult)
      refine ⟨fun s hs => ?_, fun b hb => ?_, fun e he => ?_⟩
      · rw [visited_bind_ok hresult] at hs
        exact (List.mem_append.mp hs).elim (hx.visited s) (hfa.visited s)
      · rw [result_bind, hresult] at hb
        exact hfa.ok b hb
      · rw [result_bind, hresult] at he
        exact hfa.error e he

lemma mono {Q' : α → Prop} (hx : Runs P E x Q) (h : ∀ a, Q a → Q' a) : Runs P E x Q' :=
  ⟨hx.visited, fun a ha => h a (hx.ok a ha), hx.error⟩

/-- Both branches of a test. -/
lemma ite {c : Prop} [Decidable c] {y : Traced σ ε α} (hx : c → Runs P E x Q)
    (hy : ¬c → Runs P E y Q) : Runs P E (if c then x else y) Q := by
  split
  next h => exact hx h
  next h => exact hy h

/-- A state is visited first. -/
lemma visit_bind {s : σ} {f : Unit → Traced σ ε β} (hs : P s) (hf : Runs P E (f ()) R) :
    Runs P E (Traced.visit s >>= f) R :=
  (visit hs).bind fun _ _ => hf

/-- What records a computation that it cannot get stuck in gives its value. -/
lemma exists_some {y : Option α} {x : Traced σ Unit α} (h : Runs P (fun _ => False) x Q)
    (hy : x.result = orStuck y) : ∃ a, y = some a ∧ Q a := by
  cases y with
  | none => exact absurd (h.error () hy) not_false
  | some a => exact ⟨a, rfl, h.ok a hy⟩

end Runs

end Traced

end LibCmutils
