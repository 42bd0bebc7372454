import Groundwork.Failure
import Groundwork.Json.Value
import Groundwork.Repository.FileTree
import Groundwork.Settings

/-!
Checking out a repository into a folder of its own, and removing it after use. The folder is made
before the command runs. It is removed again if the command does not succeed or cannot be run.
-/

namespace Groundwork

inductive CommandOutcome where
  | exited (code : Int) (errorOutput : String)
  | timedOut (command : String) (seconds : Json)
  | notRun (reason : String)
  | broken (failure : Failure)

structure CommandRun where
  outcome : CommandOutcome
  left : FileTree := .empty

structure Checkout where
  name : String
  tree : FileTree

/-- The folder of all checkouts. Names are numbered on. -/
structure CheckoutFolder where
  checkouts : List Checkout := []
  next : Nat := 0

structure Fetcher (m : Type → Type) where
  fetch : String → String → m (Except Failure Checkout)
  release : Checkout → m Unit

/-- Works on a checkout, which is given back however the work comes out. -/
def Fetcher.withCheckout {m : Type → Type} [Monad m] {α : Type} (f : Fetcher m) (url branch : String)
    (work : Checkout → m (Except Failure α)) : ExceptT Failure m α := do
  let checkout ← ExceptT.mk (f.fetch url branch)
  let result ← ExceptT.lift (work checkout)
  f.release checkout
  ExceptT.mk (pure result)

namespace CheckoutFolder

def nameStart : String := "repo_"

def command (url branch target : String) : List String :=
  ["git", "clone", "--depth", "1", "--branch", branch, "--single-branch", url, target]

def timeoutReason (command : String) (seconds : Json) : String :=
  "Command '" ++ command ++ "' timed out after " ++ seconds.shown ++ " seconds"

def failure? (url : String) : CommandOutcome → Option (Failure × Bool)
  | .exited 0 _ => none
  | .exited code output =>
    some (.clone (.exited url code (Text.clip 300 (Text.strip output))), true)
  | .timedOut command seconds => some (.clone (.failed url (timeoutReason command seconds)), true)
  | .notRun reason => some (.clone (.failed url reason), true)
  | .broken failure => some (failure, false)

def add (folder : CheckoutFolder) : Checkout × CheckoutFolder :=
  let made : Checkout := ⟨nameStart ++ toString folder.next, .empty⟩
  (made, { checkouts := folder.checkouts ++ [made], next := folder.next + 1 })

def remove (name : String) (folder : CheckoutFolder) : CheckoutFolder :=
  { folder with checkouts := folder.checkouts.filter (·.name != name) }

def fill (target : Checkout) (folder : CheckoutFolder) : CheckoutFolder :=
  { folder with checkouts := folder.checkouts.map fun c => if c.name = target.name then target else c }

def finish (url : String) (made : Checkout) (run : CommandRun) (folder : CheckoutFolder) :
    Except Failure Checkout × CheckoutFolder :=
  let filled := { made with tree := run.left }
  match failure? url run.outcome with
  | none => (.ok filled, folder.fill filled)
  | some (failure, removed) =>
    (.error failure, if removed then folder.remove made.name else folder.fill filled)

variable {m : Type → Type} [Monad m]

def fetcher (settings : WorkspaceSettings) (run : List String → Json → m CommandRun) :
    Fetcher (StateT CheckoutFolder m) where
  fetch url branch := do
    let (made, grown) := (← get).add
    set grown
    let ran ← run (command url branch made.name) settings.cloneTimeout
    let (result, left) := (← get).finish url made ran
    set left
    return result
  release checkout := modify fun folder =>
    if settings.keepClones then folder else folder.remove checkout.name

end CheckoutFolder

end Groundwork
