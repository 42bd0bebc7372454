import Groundwork.Proofs.Service.Indexing

/-!
The checkouts that indexing a repository leaves behind. Everything but the fetcher is unknown here and may
fail; what is followed is the folder of all checkouts.
-/

namespace Groundwork

variable {σ τ : Type}

structure Backend.FetcherOnly (b : Backend (StateT τ (StateM σ))) : Prop where
  ensureIndex : Groundwork.Quiet b.ensureIndex
  countRows : ∀ nspace, Groundwork.Quiet (b.countRows nspace)
  upsert : ∀ nspace rows, Groundwork.Quiet (b.upsert nspace rows)
  embed : ∀ texts, Groundwork.Quiet (b.embed texts)
  ask : ∀ call, Groundwork.Quiet (b.ask call)
  pause : ∀ seconds, Groundwork.Quiet (b.pause seconds)
  keepArtifact : ∀ nspace text, Groundwork.Quiet (b.keepArtifact nspace text)

def Backend.checkingOut (b : Backend (StateM σ)) (settings : WorkspaceSettings)
    (run : List String → Json → StateM σ CommandRun) : Backend (StateT CheckoutFolder (StateM σ)) where
  parse := b.parse
  fetcher := CheckoutFolder.fetcher settings run
  ensureIndex := StateT.lift b.ensureIndex
  countRows nspace := StateT.lift (b.countRows nspace)
  upsert nspace rows := StateT.lift (b.upsert nspace rows)
  query nspace vector topK filter := StateT.lift (b.query nspace vector topK filter)
  embed texts := StateT.lift (b.embed texts)
  ask call := StateT.lift (b.ask call)
  pause seconds := StateT.lift (b.pause seconds)
  keepArtifact nspace text := StateT.lift (b.keepArtifact nspace text)

theorem Backend.checkingOut_fetcherOnly (b : Backend (StateM σ)) (settings : WorkspaceSettings)
    (run : List String → Json → StateM σ CommandRun) : (b.checkingOut settings run).FetcherOnly where
  ensureIndex := quiet_lift _
  countRows _ := quiet_lift _
  upsert _ _ := quiet_lift _
  embed _ := quiet_lift _
  ask _ := quiet_lift _
  pause _ := quiet_lift _
  keepArtifact _ _ := quiet_lift _

namespace Service

variable {c : Configuration} {b : Backend (StateT τ (StateM σ))} {nspace url branch : String}

theorem storeIndex_quiet (only : b.FetcherOnly) (a : Analysis) (summaries : List SummaryResult) :
    Quiet (storeIndex c b nspace a summaries).run := by
  intro t result t' ran
  obtain ⟨_, wrote, _⟩ := storeIndex_outcome ran
  rcases writeRows_ran only.embed only.pause wrote with ⟨_, _, same⟩ | ⟨_, _, _, _, _, writes, _⟩
  · exact same
  · exact writes.quiet (only.upsert _)

theorem writeIndex_quiet (only : b.FetcherOnly) (a : Analysis) :
    Quiet (writeIndex c b nspace a).run := by
  have summaries := summarize_quiet only.ask only.pause c.summaries (a.files.map (·.enrich))
  intro t result t' ran
  rcases ran.of_tryBind with ⟨_, summarized, _⟩ | ⟨_, middle, summarized, next⟩
  · exact summaries _ _ _ summarized
  obtain rfl := summaries _ _ _ summarized
  dsimp only at next
  split at next
  · rcases next.of_tryBind with ⟨_, kept, _⟩ | ⟨_, later, kept, last⟩
    · exact only.keepArtifact _ _ _ _ _ kept
    · obtain rfl := only.keepArtifact _ _ _ _ _ kept
      exact storeIndex_quiet only _ _ _ _ _ last
  · exact storeIndex_quiet only _ _ _ _ _ next

theorem isCached_quiet (only : b.FetcherOnly) : Quiet (isCached b nspace).run := by
  intro t result t' ran
  obtain ⟨_, counted, _⟩ := isCached_ran ran
  exact only.countRows _ _ _ _ counted

open CheckoutFolder in
theorem indexBranch_left {b : Backend (StateM σ)} {run : List String → Json → StateM σ CommandRun}
    {folder folder' : CheckoutFolder} (tidy : c.workspace.keepClones = false)
    (numbered : folder.Numbered) {result : Except Failure IndexResult}
    (ran : Ran (indexBranch c (b.checkingOut c.workspace run) url branch).run folder result folder') :
    folder' = folder ∨ Left c.workspace run url branch folder result folder' := by
  have only := b.checkingOut_fetcherOnly c.workspace run
  rcases ran.of_tryBind with ⟨_, notReady, rfl⟩ | ⟨_, ready, isReady, onward⟩
  · exact Or.inl (only.ensureIndex _ _ _ notReady)
  rw [only.ensureIndex _ _ _ isReady] at onward
  rcases onward.of_tryBind with ⟨_, gate, rfl⟩ | ⟨cached, counted, gate, next⟩
  · exact Or.inl (isCached_quiet only _ _ _ gate)
  rw [isCached_quiet only _ _ _ gate] at next
  right
  have quiet (checkout : Checkout) : Quiet
      (pure (.ok (Analysis.ofTree b.parse checkout.tree url branch)) :
        StateT CheckoutFolder (StateM σ) (Except Failure Analysis)) := quiet_pure _
  rcases next.of_tryBind with ⟨failure, surveyed, rfl⟩ | ⟨a, later, surveyed, last⟩
  · cases withCheckout_left tidy numbered quiet surveyed with
    | nothing comes whole => exact .nothing comes whole
    | stranded comes broken => exact .stranded comes broken
  · obtain rfl : folder' = later := by
      split at last
      · exact last.of_tryPure.2
      · exact writeIndex_quiet only a _ _ _ last
    cases withCheckout_left tidy numbered quiet surveyed with
    | nothing comes whole => exact .nothing comes whole

open CheckoutFolder in
/-- After a call that does not keep its checkout the folder has the checkouts of before, however the stages
come out. The exception is a command that breaks off other than by a fault of the system or for lack of
time: the call fails and one checkout more is left, since nobody knows of it. Work on a checkout that may
fail, in place of the analysis, would make no difference. -/
theorem index_checkouts (c : Configuration) (b : Backend (StateM σ))
    (run : List String → Json → StateM σ CommandRun) (payload : Json) {folder folder' : CheckoutFolder}
    {result : Except Failure IndexResult} (tidy : c.workspace.keepClones = false)
    (numbered : folder.Numbered)
    (ran : Ran (index c (b.checkingOut c.workspace run) payload) folder result folder') :
    folder'.Numbered ∧
      (folder'.checkouts = folder.checkouts ∧
          (folder' = folder ∨ ∃ r ended, Request.validate Request.index payload = .ok r ∧
            Comes c.workspace run r.repoUrl r.branch folder ended ∧
            ∀ failure, ended.outcome ≠ .broken failure) ∨
        ∃ r ended failure, Request.validate Request.index payload = .ok r ∧
          Comes c.workspace run r.repoUrl r.branch folder ended ∧ ended.outcome = .broken failure ∧
          folder'.checkouts = folder.checkouts ++ [⟨folder.newName, ended.left⟩] ∧
          result = hiddenUnlessRequest "Failed to index repository" (.error failure)) ∧
      ∀ (work : Checkout → StateM σ (Except Failure Analysis)) url branch answer folder'',
        Ran ((b.checkingOut c.workspace run).fetcher.withCheckout url branch fun checkout =>
          StateT.lift (work checkout)).run folder answer folder'' →
        Left c.workspace run url branch folder answer folder'' := by
  have anyWork (work : Checkout → StateM σ (Except Failure Analysis)) (url branch : String)
      (answer : Except Failure Analysis) (folder'' : CheckoutFolder)
      (working : Ran ((b.checkingOut c.workspace run).fetcher.withCheckout url branch fun checkout =>
        StateT.lift (work checkout)).run folder answer folder'') :
      Left c.workspace run url branch folder answer folder'' :=
    withCheckout_left tidy numbered (fun _ => quiet_lift _) working
  rw [index] at ran
  cases accepted : Request.validate Request.index payload with
  | error failure =>
      rw [accepted] at ran
      obtain ⟨_, rfl⟩ := ran.of_pure
      exact ⟨numbered, Or.inl ⟨rfl, Or.inl rfl⟩, anyWork⟩
  | ok r =>
      rw [accepted] at ran
      obtain ⟨inner, middle, branchRan, last⟩ := ran.of_bind
      obtain ⟨rfl, rfl⟩ := last.of_pure
      rcases indexBranch_left tidy numbered branchRan with rfl | left
      · exact ⟨numbered, Or.inl ⟨rfl, Or.inl rfl⟩, anyWork⟩
      · refine ⟨left.numbered numbered, ?_, anyWork⟩
        cases left with
        | @nothing ended _ comes whole =>
            exact Or.inl ⟨rfl, Or.inr ⟨r, ended, rfl, comes, whole⟩⟩
        | @stranded ended failure comes broken =>
            exact Or.inr ⟨r, ended, failure, rfl, comes, broken, rfl, rfl⟩

def idleBackend : Backend (StateM Unit) where
  parse _ _ := none
  fetcher := { fetch := fun url _ => return .error (.clone (.failed url "")), release := fun _ => return () }
  ensureIndex := return .ok ()
  countRows _ := return .ok 0
  upsert _ _ := return .error (.store (.failed "upsert"))
  query _ _ _ _ := return .ok []
  embed _ := return .ok []
  ask _ := return .error (.data .missingKey)
  pause _ := return .ok ()
  keepArtifact _ _ := return .ok ()

def anyHome : Configuration := ⟨.ofText "/home", []⟩

def anyPayload : Json := .obj [("repo_url", .str "https://github.com/acme/shop")]

def always (outcome : CommandOutcome) (_ : List String) (_ : Json) : StateM Unit CommandRun :=
  return ⟨outcome, .empty⟩

theorem index_checkouts_exited : ∃ result folder',
    Ran (index anyHome (idleBackend.checkingOut anyHome.workspace (always (.exited 0 ""))) anyPayload)
      {} result folder' ∧ anyHome.workspace.keepClones = false ∧ CheckoutFolder.Numbered {} ∧
      folder'.checkouts = [] := by
  rcases outcome : ((index anyHome (idleBackend.checkingOut anyHome.workspace (always (.exited 0 "")))
    anyPayload).run {}).run () with ⟨⟨result, folder'⟩, later⟩
  have ran : Ran (index anyHome (idleBackend.checkingOut anyHome.workspace (always (.exited 0 "")))
    anyPayload) {} result folder' := ⟨(), later, outcome⟩
  have numbered : CheckoutFolder.Numbered {} := by
    intro checkout member
    simp at member
  refine ⟨result, folder', ran, rfl, numbered, ?_⟩
  obtain ⟨_, ⟨same, _⟩ | ⟨_, _, failure, _, ⟨_, rfl⟩, broken, _⟩, _⟩ :=
    index_checkouts anyHome idleBackend (always (.exited 0 "")) anyPayload rfl numbered ran
  · exact same
  · cases broken

/-- A text with a null byte cannot be part of a command, and the folder for the checkout stays. -/
theorem broken_command_strands :
    Ran (index anyHome (idleBackend.checkingOut anyHome.workspace (always (.broken (.data .badValue))))
      anyPayload) {} (.error (.service "Failed to index repository")) ⟨[⟨"repo_0", .empty⟩], 1⟩ :=
  ⟨(), (), rfl⟩

end Service

end Groundwork
