import Groundwork.Proofs.Ran
import Groundwork.Proofs.Text.Pieces
import Groundwork.Repository.Checkout
import Mathlib.Data.List.Basic

/-!
What becomes of the folder of all checkouts. Whoever works on a checkout gives it back, also where the
work fails. What is left is the command itself: a folder is removed if the command fails in a known way,
and stays if running it breaks off otherwise.
-/

namespace Groundwork

variable {σ τ α : Type} {url branch : String}

theorem Fetcher.withCheckout_ran {f : Fetcher (StateT τ (StateM σ))}
    {work : Checkout → StateT τ (StateM σ) (Except Failure α)} {t t' : τ} {result : Except Failure α}
    (ran : Ran (f.withCheckout url branch work).run t result t') :
    (∃ failure, Ran (f.fetch url branch) t (.error failure) t' ∧ result = .error failure) ∨
      ∃ checkout held left, Ran (f.fetch url branch) t (.ok checkout) held ∧
        Ran (work checkout) held result left ∧ Ran (f.release checkout) left () t' := by
  rcases ran.of_tryBind with ⟨failure, fetched, rfl⟩ | ⟨checkout, held, fetched, next⟩
  · exact Or.inl ⟨failure, fetched, rfl⟩
  · obtain ⟨worked, left, working, next⟩ := Ran.of_tryLiftBind next
    obtain ⟨_, _, releasing, last⟩ := Ran.of_tryLiftBind next
    obtain ⟨rfl, rfl⟩ := last.of_pure
    exact Or.inr ⟨checkout, held, left, fetched, working, releasing⟩

namespace CheckoutFolder

variable {folder folder' : CheckoutFolder}

def Numbered (folder : CheckoutFolder) : Prop :=
  ∀ checkout ∈ folder.checkouts, ∀ k, folder.next ≤ k → checkout.name ≠ nameStart ++ toString k

theorem nameStart_toString_inj {k n : Nat} (same : nameStart ++ toString k = nameStart ++ toString n) :
    k = n := by
  have digits := congrArg String.toList ((String.append_right_inj _).mp same)
  exact Text.toDigits_injective (by simpa using digits)

def newName (folder : CheckoutFolder) : String := nameStart ++ toString folder.next

def grown (folder : CheckoutFolder) (tree : FileTree) : CheckoutFolder where
  checkouts := folder.checkouts ++ [⟨folder.newName, tree⟩]
  next := folder.next + 1

def skipped (folder : CheckoutFolder) : CheckoutFolder := { folder with next := folder.next + 1 }

theorem Numbered.skipped (numbered : folder.Numbered) : folder.skipped.Numbered := by
  intro checkout member k later
  exact numbered checkout member k (Nat.le_of_succ_le later)

theorem Numbered.grown (numbered : folder.Numbered) (tree : FileTree) :
    (folder.grown tree).Numbered := by
  intro checkout member k later
  rcases List.mem_append.mp member with old | new
  · exact numbered.skipped checkout old k later
  · obtain rfl := List.mem_singleton.mp new
    intro same
    obtain rfl := nameStart_toString_inj same
    exact Nat.not_succ_le_self _ later

theorem Numbered.ne_newName (numbered : folder.Numbered) {checkout : Checkout}
    (member : checkout ∈ folder.checkouts) : checkout.name ≠ folder.newName :=
  numbered checkout member folder.next (Nat.le_refl _)

theorem remove_grown (numbered : folder.Numbered) (tree : FileTree) :
    (folder.grown tree).remove folder.newName = folder.skipped := by
  have others : folder.checkouts.filter (·.name != folder.newName) = folder.checkouts :=
    List.filter_eq_self.mpr fun checkout member => by simpa using numbered.ne_newName member
  simp [remove, CheckoutFolder.grown, CheckoutFolder.skipped, others]

theorem finish_grown (numbered : folder.Numbered) (url : String) (run : CommandRun) :
    (folder.grown .empty).finish url ⟨folder.newName, .empty⟩ run = match failure? url run.outcome with
      | none => (.ok ⟨folder.newName, run.left⟩, folder.grown run.left)
      | some (failure, true) => (.error failure, folder.skipped)
      | some (failure, false) => (.error failure, folder.grown run.left) := by
  have others : folder.checkouts.map (fun checkout =>
      if checkout.name = folder.newName then ⟨folder.newName, run.left⟩ else checkout) =
        folder.checkouts := by
    conv_rhs => rw [← List.map_id folder.checkouts]
    refine List.map_congr_left fun checkout member => ?_
    rw [if_neg (numbered.ne_newName member), id]
  rw [finish]
  match failure? url run.outcome with
  | none => simp [CheckoutFolder.grown, fill, others]
  | some (failure, true) => simp [remove_grown numbered]
  | some (failure, false) => simp [CheckoutFolder.grown, fill, others]

variable {settings : WorkspaceSettings} {run : List String → Json → StateM σ CommandRun}

def Comes (settings : WorkspaceSettings) (run : List String → Json → StateM σ CommandRun)
    (url branch : String) (folder : CheckoutFolder) (ended : CommandRun) : Prop :=
  ∃ world, ((run (command url branch folder.newName) settings.cloneTimeout).run world).1 = ended

theorem kept_iff {outcome : CommandOutcome} {failure : Failure} :
    failure? url outcome = some (failure, false) ↔ outcome = .broken failure := by
  constructor
  · intro kept
    rw [failure?.eq_def] at kept
    split at kept
    · simp at kept
    · simp at kept
    · simp at kept
    · simp at kept
    · simpa using kept
  · rintro rfl
    rfl

theorem fetch_run (settings : WorkspaceSettings) (run : List String → Json → StateM σ CommandRun)
    (url branch : String) (folder : CheckoutFolder) (world : σ) :
    ((((fetcher settings run).fetch url branch).run folder).run world).1 =
      (folder.grown .empty).finish url ⟨folder.newName, .empty⟩
        ((run (command url branch folder.newName) settings.cloneTimeout).run world).1 := rfl

theorem fetch_ran (numbered : folder.Numbered) {result : Except Failure Checkout}
    (ran : Ran ((fetcher settings run).fetch url branch) folder result folder') :
    ∃ ended, Comes settings run url branch folder ended ∧
      ((∀ failure, ended.outcome ≠ .broken failure) ∧
          ((∃ tree, result = .ok ⟨folder.newName, tree⟩ ∧ folder' = folder.grown tree) ∨
            ∃ failure, result = .error failure ∧ folder' = folder.skipped) ∨
        ∃ failure, ended.outcome = .broken failure ∧ result = .error failure ∧
          folder' = folder.grown ended.left) := by
  obtain ⟨world, later, same⟩ := ran
  have answer := fetch_run settings run url branch folder world
  rw [same, finish_grown numbered] at answer
  refine ⟨_, ⟨world, rfl⟩, ?_⟩
  generalize ((run (command url branch folder.newName) settings.cloneTimeout).run world).1 = ran
    at answer ⊢
  match removed : failure? url ran.outcome with
  | none =>
      rw [removed] at answer
      obtain ⟨rfl, rfl⟩ := Prod.mk.inj answer
      exact Or.inl ⟨fun failure broken => by simp [kept_iff.mpr broken] at removed,
        Or.inl ⟨_, rfl, rfl⟩⟩
  | some (failure, true) =>
      rw [removed] at answer
      obtain ⟨rfl, rfl⟩ := Prod.mk.inj answer
      exact Or.inl ⟨fun failure broken => by simp [kept_iff.mpr broken] at removed,
        Or.inr ⟨failure, rfl, rfl⟩⟩
  | some (failure, false) =>
      rw [removed] at answer
      obtain ⟨rfl, rfl⟩ := Prod.mk.inj answer
      exact Or.inr ⟨failure, kept_iff.mp removed, rfl, rfl⟩

theorem release_ran (tidy : settings.keepClones = false) {checkout : Checkout}
    (ran : Ran ((fetcher settings run).release checkout) folder () folder') :
    folder' = folder.remove checkout.name := by
  have removed := ran.of_modify
  rwa [if_neg (by simp [tidy])] at removed

/-- What a use of the folder leaves: what was there before and, if the command broke off, one more checkout
with what the command had put there. -/
inductive Left (settings : WorkspaceSettings) (run : List String → Json → StateM σ CommandRun)
    (url branch : String) (folder : CheckoutFolder) : Except Failure α → CheckoutFolder → Prop
  | nothing {ended : CommandRun} {result : Except Failure α} :
      Comes settings run url branch folder ended → (∀ failure, ended.outcome ≠ .broken failure) →
      Left settings run url branch folder result folder.skipped
  | stranded {ended : CommandRun} {failure : Failure} : Comes settings run url branch folder ended →
      ended.outcome = .broken failure →
      Left settings run url branch folder (.error failure) (folder.grown ended.left)

theorem withCheckout_left (tidy : settings.keepClones = false) (numbered : folder.Numbered)
    {work : Checkout → StateT CheckoutFolder (StateM σ) (Except Failure α)}
    (quiet : ∀ checkout, Quiet (work checkout)) {result : Except Failure α}
    (ran : Ran ((fetcher settings run).withCheckout url branch work).run folder result folder') :
    Left settings run url branch folder result folder' := by
  rcases Fetcher.withCheckout_ran ran with
    ⟨failure, fetched, rfl⟩ | ⟨checkout, held, left, fetched, working, releasing⟩
  · obtain ⟨ended, comes, ⟨whole, ⟨_, same, _⟩ | ⟨_, _, rfl⟩⟩ | ⟨other, broken, same, rfl⟩⟩ :=
      fetch_ran numbered fetched
    · simp at same
    · exact .nothing comes whole
    · obtain rfl := Except.error.inj same
      exact .stranded comes broken
  · obtain ⟨ended, comes, ⟨whole, ⟨tree, same, rfl⟩ | ⟨_, same, _⟩⟩ | ⟨_, _, same, _⟩⟩ :=
      fetch_ran numbered fetched
    · obtain rfl := Except.ok.inj same
      obtain rfl := quiet _ _ _ _ working
      rw [release_ran tidy releasing, remove_grown numbered]
      exact .nothing comes whole
    · simp at same
    · simp at same

theorem Left.numbered {result : Except Failure α} (numbered : folder.Numbered)
    (left : Left settings run url branch folder result folder') : folder'.Numbered := by
  cases left with
  | nothing _ _ => exact numbered.skipped
  | stranded _ _ => exact numbered.grown _

end CheckoutFolder

end Groundwork
