import Groundwork.Proofs.Command.Stops
import Groundwork.Proofs.Each
import Groundwork.Proofs.Ran

/-!
How the command for a plan ends. With a configuration that loads it shows a plan, finds a fault with how it was
called or says that it failed. Four things break it off: a phase that is looked at before it is checked, a folder
that the configuration does not name, a provider that it names by no text, and an instruction that is taken for
text with style tags.
-/

namespace Groundwork.Command

variable {σ : Type}

section Endings

def readAt (w : World (StateM σ)) (file : FilePath) (world : σ) : Option Json :=
  match ((w.files.at? file).run world).1 with
  | some (.file content) => content.text?.bind Json.ofText?
  | _ => none

def planPayload (nspace : String) (phase : Json) (references : List Json) : Json :=
  .obj [("namespace", .str nspace), ("phase", phase), ("top_relevant_files", .arr references)]

/-- The files that a plan is made for are those that are named, or else those of the phase. -/
inductive Refers (options : List String) (phase : Json) : List Json → Prop where
  | named {given : List FileReference} (some : options ≠ [])
      (read : options.mapM FileReference.ofText = .ok given) :
      Refers options phase (given.map (·.toJson))
  | own {references : List Json} (none : options = []) (read : ownReferences phase = .ok references) :
      Refers options phase references

def Loads (w : World (StateM σ)) (i : Invocation) (c : Configuration) : Prop :=
  ∃ world later, (configuration w i).run.run world = (.ok c, later)

/-- The folder of the store cannot be found or made, or that of the checkouts cannot be found. -/
inductive Misplaced (userHome : FilePath) (c : Configuration) : Failure → Prop where
  | store {failure : Failure} (unnamed : c.storePath userHome = .error failure) :
      Misplaced userHome c failure
  | nullCharacter {folder : FilePath} (named : c.storePath userHome = .ok folder)
      (odd : '\x00' ∈ folder.text.toList) : Misplaced userHome c (.data .badValue)
  | checkouts {failure : Failure} (unnamed : c.clonePath userHome = .error failure) :
      Misplaced userHome c failure

def Unspoken (c : Configuration) : Prop :=
  ∃ part ∈ ["embeddings", "llm"], ∀ name, c.field part "provider" ≠ .str name

def Serves (w : World (StateM σ)) (i : Invocation) (payload : Json)
    (answer : Except Failure DetailedPlan) : Prop :=
  ∃ c store changed, Loads w i c ∧
    Ran (Service.plan c ((outside w c).backend c) payload) store answer changed

variable (w : World (StateM σ)) (i : Invocation) (nspace : String) (file : FilePath)
  (options : List String) (world : σ)

def Sends (payload : Json) : Prop :=
  ∃ phase references, readAt w file world = some phase ∧ Refers options phase references ∧
    payload = planPayload nspace phase references

inductive Concludes : Outcome → Prop where
  | misused (unread : readAt w file world = none ∨ ∃ why, options.mapM FileReference.ofText = .error why) :
      Concludes ⟨2, "", none, none⟩
  | invalid {payload : Json} {violations : List String} (sent : Sends w nspace file options world payload)
      (refused : Request.validate Request.plan payload = .error (.request violations)) :
      Concludes ⟨2, "", some (Block.ofLines ("❌ Invalid request:" :: violations.map ("  - " ++ ·))), none⟩
  | unprepared {payload : Json} {c : Configuration} {folder : FilePath} {fault : FileFault} {before : σ}
      (sent : Sends w nspace file options world payload) (loads : Loads w i c)
      (named : c.storePath w.userHome = .ok folder)
      (unmade : ((w.files.makeFolder folder).run before).1 = .error fault) :
      Concludes ⟨1, "", some (Block.ofLines ["❌ Cannot prepare storage"]), none⟩
  | unplanned {payload : Json} (sent : Sends w nspace file options world payload)
      (failed : Serves w i payload (.error (.service PlanningFault.publicMessage))) :
      Concludes ⟨1, "", some (Block.ofLines ["❌ " ++ PlanningFault.publicMessage]), none⟩
  | document {payload : Json} {d : DetailedPlan} (sent : Sends w nspace file options world payload)
      (planned : Serves w i payload (.ok d)) (asJson : i.asJson = true) :
      Concludes ⟨0, Block.ofLines [d.toJson.indented 0], none, none⟩
  | shown {payload : Json} {d : DetailedPlan} {instruction : String}
      (sent : Sends w nspace file options world payload) (planned : Serves w i payload (.ok d))
      (asText : i.asJson = false) (fits : Markup.plain? d.instruction = some instruction) :
      Concludes ⟨0, Block.ofLines ["Instruction", instruction] ++ Block.ofLines [d.plan], none, none⟩

inductive Breaks : Failure → Prop where
  | noObject {phase : Json} (read : readAt w file world = some phase) (alone : options = [])
      (other : ∀ m, phase ≠ .obj m) : Breaks (.data .noMember)
  | noList {m : Json.Members} {value : Json} (read : readAt w file world = some (.obj m))
      (alone : options = []) (there : m.lookup "relevantFiles" = some value)
      (other : (∀ items, value ≠ .arr items) ∧ ∀ s, value ≠ .str s) : Breaks (.data .wrongKind)
  | folder {payload : Json} {c : Configuration} {failure : Failure}
      (sent : Sends w nspace file options world payload) (loads : Loads w i c)
      (misplaced : Misplaced w.userHome c failure) : Breaks failure
  | provider {payload : Json} {c : Configuration} (sent : Sends w nspace file options world payload)
      (loads : Loads w i c) (unspoken : Unspoken c) : Breaks (.data .noMember)
  | tags {payload : Json} {d : DetailedPlan} (sent : Sends w nspace file options world payload)
      (planned : Serves w i payload (.ok d)) (asText : i.asJson = false)
      (unfit : Markup.plain? d.instruction = none) : Breaks (.data .badMarkup)

end Endings

section Stages

variable {w : World (StateM σ)} {i : Invocation} {file : FilePath} {world : σ} {payload : Json}

theorem ownReferences_error {phase : Json} {failure : Failure}
    (refused : ownReferences phase = .error failure) :
    (failure = .data .noMember ∧ ∀ m, phase ≠ .obj m) ∨ failure = .data .wrongKind ∧ ∃ m value,
      phase = .obj m ∧ m.lookup "relevantFiles" = some value ∧
        (∀ items, value ≠ .arr items) ∧ ∀ s, value ≠ .str s := by
  unfold ownReferences at refused
  split at refused
  · rename_i m
    split at refused
    · cases refused
    · cases refused
    · cases refused
    · rename_i value noList noText there
      cases refused
      exact Or.inr ⟨rfl, m, value, rfl, there, noList, noText⟩
  · rename_i other
    cases refused
    exact Or.inl ⟨rfl, other⟩

theorem Serves.failure {failure : Failure} (serves : Serves w i payload (.error failure)) :
    (∃ violations, failure = .request violations ∧
      Request.validate Request.plan payload = .error (.request violations)) ∨
    failure = .service PlanningFault.publicMessage := by
  obtain ⟨c, store, changed, -, ran⟩ := serves
  rw [Service.plan] at ran
  cases checked : Request.plan payload with
  | error violations =>
      have refused : Request.validate Request.plan payload = .error (.request (violations.map (·.text))) := by
        rw [Request.validate, checked]
      rw [refused] at ran
      exact Or.inl ⟨_, Except.error.inj ran.of_pure.1, refused⟩
  | ok request =>
      have accepted : Request.validate Request.plan payload = .ok request := by
        rw [Request.validate, checked]
      rw [accepted] at ran
      obtain ⟨made, middle, -, last⟩ := ran.of_bind
      obtain ⟨same, -⟩ := last.of_pure
      cases made with
      | ok d => cases same
      | error cause => exact Or.inr (Except.error.inj same)

def PlanEnds (w : World (StateM σ)) (i : Invocation) (nspace : String) (file : FilePath)
    (options : List String) (world : σ) (outcome : Outcome) : Prop :=
  Concludes w i nspace file options world outcome ∨
    ∃ failure, Breaks w i nspace file options world failure ∧ outcome = .crashed "" failure

variable {nspace : String} {options : List String}

theorem PlanEnds.misused {outcome : Outcome} (ends : PlanEnds w i nspace file options world outcome)
    (unread : readAt w file world = none) : outcome = ⟨2, "", none, none⟩ := by
  have unsent {payload : Json} (sent : Sends w nspace file options world payload) : False := by
    obtain ⟨phase, references, read, -⟩ := sent
    simp [unread] at read
  rcases ends with concludes | ⟨failure, breaks, rfl⟩
  · cases concludes with
    | misused _ => rfl
    | _ => exact (unsent ‹_›).elim
  · cases breaks with
    | noObject read _ _ => simp [unread] at read
    | noList read _ _ _ => simp [unread] at read
    | _ => exact (unsent ‹_›).elim

theorem PlanEnds.broken {outcome : Outcome} (ends : PlanEnds w i nspace file [] world outcome) {phase : Json}
    (read : readAt w file world = some phase) {failure : Failure}
    (refused : ownReferences phase = .error failure) : outcome = .crashed "" failure := by
  have unsent {payload : Json} (sent : Sends w nspace file [] world payload) : False := by
    obtain ⟨other, references, same, refers, -⟩ := sent
    obtain rfl := Option.some.inj (read.symm.trans same)
    cases refers with
    | named some => exact some rfl
    | own _ own => simp [refused] at own
  rcases ends with concludes | ⟨other, breaks, rfl⟩
  · cases concludes with
    | misused unread => simp [read, pure, Except.pure] at unread
    | _ => exact (unsent ‹_›).elim
  · have kind := ownReferences_error refused
    cases breaks with
    | noObject same _ unlike =>
        obtain rfl := Option.some.inj (read.symm.trans same)
        rcases kind with ⟨rfl, -⟩ | ⟨-, m, -, like, -⟩
        · rfl
        · exact absurd like (unlike m)
    | noList same _ _ _ =>
        obtain rfl := Option.some.inj (read.symm.trans same)
        rcases kind with ⟨-, unlike⟩ | ⟨rfl, -⟩
        · exact absurd rfl (unlike _)
        · rfl
    | _ => exact (unsent ‹_›).elim

end Stages

end Groundwork.Command
