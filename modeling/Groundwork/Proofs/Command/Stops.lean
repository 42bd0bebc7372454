import Groundwork.Command.Run
import Groundwork.Proofs.Request.Messages

/-!
How a command ends. Its parts run one after the other until one of them stops it. What stops a command is
printed, and a text without an opening bracket is printed as it is.
-/

namespace Groundwork.Command

variable {σ α β : Type}

section Runs

/-- In a state of the world the computation is stopped by something of one kind, or else it gives a value and
leaves a state of another. -/
def Ends (x : ExceptT Stop (StateM σ) α) (world : σ) (stopped : Stop → Prop) (done : α → σ → Prop) :
    Prop :=
  match x.run.run world with
  | (.ok a, later) => done a later
  | (.error stop, _) => stopped stop

variable {x : ExceptT Stop (StateM σ) α} {f : α → ExceptT Stop (StateM σ) β} {world : σ}
  {stopped : Stop → Prop} {done : α → σ → Prop} {next : β → σ → Prop}

theorem Ends.bind (first : Ends x world stopped done)
    (second : ∀ a later, done a later → Ends (f a) later stopped next) :
    Ends (x >>= f) world stopped next := by
  simp only [Ends, ExceptT.run_bind, StateT.run_bind] at first ⊢
  revert first
  cases ran : x.run.run world with
  | mk answer later =>
      cases answer with
      | ok a => exact second a later
      | error stop => exact id

theorem Ends.mono {stopped' : Stop → Prop} {done' : α → σ → Prop} (ends : Ends x world stopped done)
    (stops : ∀ {stop}, stopped stop → stopped' stop) (goes : ∀ {a later}, done a later → done' a later) :
    Ends x world stopped' done' := by
  simp only [Ends] at ends ⊢
  revert ends
  cases ran : x.run.run world with
  | mk answer later =>
      cases answer with
      | ok a => exact goes
      | error stop => exact stops

end Runs

section Screens

end Screens

theorem Ends.outcome {w : World (StateM σ)} {args : List String} {i : Invocation} {world : σ}
    {holds : Outcome → Prop} (given : Invocation.read args = .ok i)
    (ends : Ends (blocks w i) world (fun stop => holds (.ofResult (.error stop)))
      (fun shown _ => holds (.ofResult (.ok shown)))) : holds ((run w args).run world).1 := by
  have ran : ((run w args).run world).1 = .ofResult ((blocks w i).run.run world).1 := by
    rw [run, given]
    rfl
  rw [ran]
  revert ends
  rw [Ends]
  cases ran : (blocks w i).run.run world with
  | mk answer later =>
      cases answer with
      | ok shown => exact id
      | error stop => exact id

end Groundwork.Command
