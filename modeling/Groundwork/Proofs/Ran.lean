import Groundwork.Failure
import Mathlib.Init

/-!
What a computation on a state may do when the state of the world around it is not known. A computation
of several parts ran only if its parts ran one after the other.
-/

namespace Groundwork

variable {σ τ α β ε : Type}

/-- From the state `t`, in some state of the world, the answer is `a` and the state left is `t'`. -/
def Ran (x : StateT τ (StateM σ) α) (t : τ) (a : α) (t' : τ) : Prop :=
  ∃ world later, (x.run t).run world = ((a, t'), later)

def Quiet (x : StateT τ (StateM σ) α) : Prop := ∀ t a t', Ran x t a t' → t' = t

theorem Ran.of_pure {a b : α} {t t' : τ} (ran : Ran (pure a : StateT τ (StateM σ) α) t b t') :
    b = a ∧ t' = t := by
  obtain ⟨world, later, same⟩ := ran
  cases same
  exact ⟨rfl, rfl⟩

theorem Ran.of_get {t a t' : τ} (ran : Ran (get : StateT τ (StateM σ) τ) t a t') :
    a = t ∧ t' = t := by
  obtain ⟨world, later, same⟩ := ran
  cases same
  exact ⟨rfl, rfl⟩

theorem Ran.of_modify {f : τ → τ} {t t' : τ} {a : PUnit}
    (ran : Ran (modify f : StateT τ (StateM σ) PUnit) t a t') : t' = f t := by
  obtain ⟨world, later, same⟩ := ran
  exact (congrArg (·.1.2) same).symm

theorem Ran.of_bind {x : StateT τ (StateM σ) α} {f : α → StateT τ (StateM σ) β} {t t' : τ} {b : β}
    (ran : Ran (x >>= f) t b t') : ∃ a middle, Ran x t a middle ∧ Ran (f a) middle b t' := by
  obtain ⟨world, later, same⟩ := ran
  exact ⟨_, _, ⟨world, _, rfl⟩, ⟨_, later, same⟩⟩

theorem Ran.of_map {x : StateT τ (StateM σ) α} {f : α → β} {t t' : τ} {b : β}
    (ran : Ran (f <$> x) t b t') : ∃ a, Ran x t a t' ∧ b = f a := by
  obtain ⟨world, later, same⟩ := ran
  cases same
  exact ⟨_, ⟨world, _, rfl⟩, rfl⟩

theorem Ran.of_tryBind {x : ExceptT ε (StateT τ (StateM σ)) α}
    {f : α → ExceptT ε (StateT τ (StateM σ)) β} {t t' : τ} {result : Except ε β}
    (ran : Ran (x >>= f).run t result t') :
    (∃ failure, Ran x.run t (.error failure) t' ∧ result = .error failure) ∨
      ∃ a middle, Ran x.run t (.ok a) middle ∧ Ran (f a).run middle result t' := by
  rw [ExceptT.run_bind] at ran
  obtain ⟨answer, middle, first, second⟩ := ran.of_bind
  cases answer with
  | error failure =>
      obtain ⟨same, rfl⟩ := second.of_pure
      exact Or.inl ⟨failure, first, same⟩
  | ok a => exact Or.inr ⟨a, middle, first, second⟩

theorem Ran.of_tryPure {a : α} {t t' : τ} {result : Except ε α}
    (ran : Ran (pure a : ExceptT ε (StateT τ (StateM σ)) α).run t result t') :
    result = .ok a ∧ t' = t := Ran.of_pure ran

theorem Ran.of_tryLift {x : StateT τ (StateM σ) α} {t t' : τ} {result : Except ε α}
    (ran : Ran (ExceptT.lift x : ExceptT ε (StateT τ (StateM σ)) α).run t result t') :
    ∃ a, Ran x t a t' ∧ result = .ok a := Ran.of_map ran

theorem Ran.of_tryLiftBind {x : StateT τ (StateM σ) α} {f : α → ExceptT ε (StateT τ (StateM σ)) β}
    {t t' : τ} {result : Except ε β} (ran : Ran (ExceptT.lift x >>= f).run t result t') :
    ∃ a middle, Ran x t a middle ∧ Ran (f a).run middle result t' := by
  rcases ran.of_tryBind with ⟨failure, lifted, _⟩ | ⟨a, middle, lifted, next⟩
  · obtain ⟨_, _, same⟩ := lifted.of_tryLift
    simp at same
  · obtain ⟨_, ran, same⟩ := lifted.of_tryLift
    obtain rfl := Except.ok.inj same
    exact ⟨a, middle, ran, next⟩

section Traced

/-- Computations on a state that may end with a failure: from the state `t` one gives a result and leaves a
state. -/
class Traced (m : Type → Type) [Monad m] (τ : outParam Type) where
  Gives {α : Type} : m α → τ → Except Failure α → τ → Prop
  of_pure {α : Type} {a : α} {t t' : τ} {result : Except Failure α} :
    Gives (pure a : m α) t result t' → result = .ok a ∧ t' = t
  of_bind {α β : Type} {x : m α} {f : α → m β} {t t' : τ} {result : Except Failure β} :
    Gives (x >>= f) t result t' →
      (∃ failure, Gives x t (.error failure) t' ∧ result = .error failure) ∨
        ∃ a middle, Gives x t (.ok a) middle ∧ Gives (f a) middle result t'

instance : Traced (StateT τ (StateM σ)) τ where
  Gives x t result t' := ∃ a, result = .ok a ∧ Ran x t a t'
  of_pure := by
    rintro α a t t' result ⟨_, rfl, ran⟩
    obtain ⟨rfl, rfl⟩ := ran.of_pure
    exact ⟨rfl, rfl⟩
  of_bind := by
    rintro α β x f t t' result ⟨b, rfl, ran⟩
    obtain ⟨a, middle, first, second⟩ := ran.of_bind
    exact Or.inr ⟨a, middle, ⟨a, rfl, first⟩, b, rfl, second⟩

instance : Traced (ExceptT Failure (StateT τ (StateM σ))) τ where
  Gives x t result t' := Ran x.run t result t'
  of_pure := Ran.of_tryPure
  of_bind := Ran.of_tryBind

end Traced

theorem exists_ran_ok {x : StateT τ (StateM σ) (Except ε α)} {t : τ} {world : σ} {f : α → β} {b : β}
    (ok : ((x.run t).run world).1.1.toOption.map f = some b) :
    ∃ a, Ran x t (.ok a) ((x.run t).run world).1.2 ∧ f a = b := by
  rcases outcome : (x.run t).run world with ⟨⟨answer, t'⟩, later⟩
  rw [outcome] at ok
  cases answer with
  | error failure => simp [Except.toOption] at ok
  | ok a => exact ⟨a, ⟨world, later, outcome⟩, by simpa [Except.toOption] using ok⟩

section Run

variable {f : α → ExceptT ε (StateT τ (StateM σ)) β} {t t' : τ}

theorem run_tryBind_ok {x : ExceptT ε (StateT τ (StateM σ)) α} {a : α}
    (first : x.run.run t = pure (.ok a, t')) : (x >>= f).run.run t = (f a).run.run t' := by
  rw [ExceptT.run_bind, StateT.run_bind, first, pure_bind]

theorem run_tryBind_lift {y : StateM σ (Except ε α)} :
    (ExceptT.mk (StateT.lift y : StateT τ (StateM σ) (Except ε α)) >>= f).run.run t = (do
      match ← y with
      | .error failure => return (.error failure, t)
      | .ok a => (f a).run.run t) := by
  rw [ExceptT.run_bind, StateT.run_bind, ExceptT.run_mk, StateT.run_lift, bind_assoc]
  refine bind_congr fun answer => ?_
  rw [pure_bind]
  cases answer <;> rfl

end Run

section Quiet

theorem quiet_pure (a : α) : Quiet (pure a : StateT τ (StateM σ) α) :=
  fun _ _ _ ran => ran.of_pure.2

theorem quiet_lift (x : StateM σ α) : Quiet (StateT.lift x : StateT τ (StateM σ) α) := by
  rintro t a t' ⟨world, later, same⟩
  cases same
  rfl

end Quiet

section Recording

variable {ν : Type}

def recording (note : α → ν) (x : StateM σ α) : StateT (List ν) (StateM σ) α := do
  let a ← StateT.lift x
  modify fun notes => notes ++ [note a]
  return a

theorem recording_ran {note : α → ν} {x : StateM σ α} {notes notes' : List ν} {a : α}
    (ran : Ran (recording note x) notes a notes') :
    notes' = notes ++ [note a] ∧ ∃ world, (x.run world).1 = a := by
  obtain ⟨b, middle, done, next⟩ := ran.of_bind
  obtain ⟨_, noted, noting, made⟩ := next.of_bind
  obtain ⟨rfl, rfl⟩ := made.of_pure
  rw [noting.of_modify, quiet_lift _ _ _ _ done]
  obtain ⟨world, _, same⟩ := done
  exact ⟨rfl, world, congrArg (·.1.1) same⟩

end Recording

end Groundwork
