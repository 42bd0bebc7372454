import Groundwork.Proofs.Each
import Groundwork.Proofs.Index.StoredWrites
import Groundwork.Proofs.Service.Indexing

/-!
The backend whose store is the state: what each of its parts does to the database in use.
-/

namespace Groundwork

namespace Store

@[simp] theorem current_setCurrent (s : Store) (db : Database) : (s.setCurrent db).current = db := by
  simp [current, setCurrent, setDatabase, database, lookup_setEntry]

def HasInfo (db : Database) : Prop := (db.lookup infoTable).isSome = true

instance (db : Database) : Decidable (HasInfo db) :=
  inferInstanceAs (Decidable ((db.lookup infoTable).isSome = true))

theorem Keeps.hasInfo {nspace : String} {db later : Database} (keeps : Keeps nspace db later)
    (info : HasInfo db) : HasInfo later := by
  rw [HasInfo, isSome_lookup_iff] at info ⊢
  exact keeps.names.subset info

theorem describeIndex_ok {s : Store} {index : String} {info : IndexInfo}
    (described : s.describeIndex index = .ok info) : HasInfo (s.database index) := by
  rw [describeIndex] at described
  split at described
  · simp at described
  · rename_i found
    rw [HasInfo, found]
    rfl
  · rename_i found
    rw [HasInfo, found]
    rfl

theorem awaitReady_ok {s : Store} {attempts : Int} {info : IndexInfo}
    (ready : s.awaitReady attempts = .ok info) : HasInfo s.current := by
  cases described : s.describeIndex s.index with
  | ok other => exact describeIndex_ok described
  | error failure => simp [awaitReady, readyInfo?, described] at ready

theorem ensureIndex_hasInfo {s made : Store} {dimension attempts : Int}
    (ready : s.ensureIndex dimension attempts = (.ok (), made)) : HasInfo made.current := by
  simp only [ensureIndex] at ready
  split at ready
  · simp at ready
  · rename_i other _
    rw [Prod.mk.injEq] at ready
    obtain ⟨awaited, rfl⟩ := ready
    cases waited : other.awaitReady attempts with
    | ok info => exact awaitReady_ok waited
    | error failure => simp [waited, Except.map] at awaited

theorem ensureIndex_of_hasInfo {s : Store} (info : HasInfo s.current) (dimension attempts : Int) :
    (s.ensureIndex dimension attempts).2 = s := by
  have known : s.indexes.contains s.index = true := by
    cases found : s.databases.lookup s.index with
    | none => simp [HasInfo, current, database, found] at info
    | some db =>
        have described : (db.lookup infoTable).isSome = true := by
          simpa [HasInfo, current, database, found] using info
        obtain ⟨before, after, whole, _⟩ := List.lookup_eq_some_iff.mp found
        rw [List.contains_iff_mem, indexes, sortTexts, List.mem_mergeSort, List.mem_map]
        exact ⟨(s.index, db), by simp [whole, described], rfl⟩
  rw [ensureIndex, if_pos known]

theorem createIndex_lookup {s made : Store} {dimension : Int} {metric name : String}
    (other : name ≠ infoTable) (created : s.createIndex s.index dimension metric = .ok made) :
    made.current.lookup name = s.current.lookup name := by
  rw [createIndex] at created
  split at created
  · rw [Except.ok.inj created]
  · split at created
    · simp at created
    · rw [← Except.ok.inj created]
      change (s.setCurrent _).current.lookup name = _
      rw [current_setCurrent, lookup_setEntry, if_neg other]
      rfl

theorem ensureIndex_lookup (s : Store) (dimension attempts : Int) {name : String}
    (other : name ≠ infoTable) :
    (s.ensureIndex dimension attempts).2.current.lookup name = s.current.lookup name := by
  simp only [ensureIndex]
  split
  · rfl
  · rename_i made outcome
    split at outcome
    · rw [← Except.ok.inj outcome]
    · exact createIndex_lookup other outcome

end Store

namespace Outside

variable {σ : Type} {o : Outside (StateM σ)} {c : Configuration} {s s' : Store} {nspace : String}

theorem backend_quiet (o : Outside (StateM σ)) (c : Configuration) : (o.backend c).Quiet where
  fetch _ _ := quiet_lift _
  release _ := quiet_lift _
  embed _ := Service.guarded_quiet (quiet_lift _)
  ask _ := quiet_lift _
  pause _ := quiet_lift _
  keepArtifact _ _ := quiet_lift _

structure Ensured (c : Configuration) (s ready : Store) : Prop where
  usable : "index_name" ∉ c.store.unfit ∧ "ready_attempts" ∉ c.store.unfit
  dimension : s.index ∉ s.indexes → "dim" ∉ c.embeddings.unfit
  ensured : s.ensureIndex c.embeddings.dimension c.store.readyAttempts = (.ok (), ready)

def Unnameable (c : Configuration) : Prop :=
  "index_name" ∈ c.store.unfit ∨ "dim" ∈ c.embeddings.unfit

theorem needed_cases (unfit names : List String) :
    needed unfit names = .ok () ∧ (∀ name ∈ names, name ∉ unfit) ∨
      needed unfit names = .error .wrongKind ∧ ∃ name ∈ names, name ∈ unfit := by
  by_cases fit : ∀ name ∈ names, name ∉ unfit
  · exact Or.inl ⟨Summary.needed_of_fit fit, fit⟩
  · exact Or.inr ⟨Summary.needed_of_unfit fit, by simpa using fit⟩

theorem ensureIndex_ran {result : Except Failure Unit}
    (ran : Ran (o.backend c).ensureIndex s result s') :
    (s' = (s.ensureIndex c.embeddings.dimension c.store.readyAttempts).2 ∨ Unnameable c ∧ s' = s) ∧
      (result = .ok () → Ensured c s s') := by
  have ran : Ran (o.ensureIndex c) s result s' := ran
  rw [Outside.ensureIndex, guarded] at ran
  rcases needed_cases c.store.unfit ["index_name"] with
    ⟨isUsable, named⟩ | ⟨unusable, odd⟩
  · rw [isUsable] at ran
    obtain ⟨world, later, same⟩ := ran
    dsimp only [StateT.run] at same
    rcases needed_cases (if s.indexes.contains s.index then [] else c.embeddings.unfit) ["dim"] with
      ⟨isFit, fit⟩ | ⟨unfit, odd⟩
    · rw [isFit] at same
      rcases needed_cases c.store.unfit ("ready_attempts" ::
        if (s.ensureIndex c.embeddings.dimension c.store.readyAttempts).2.waitPauses
          c.store.readyAttempts = 0 then [] else ["ready_interval"]) with ⟨_, others⟩ | ⟨refused, _⟩
      · obtain ⟨answer, rfl⟩ := Prod.mk.inj (congrArg Prod.fst same)
        refine ⟨Or.inl rfl, ?_⟩
        rintro rfl
        obtain ⟨_, _, ready⟩ := bind_eq_ok_iff.mp answer
        refine ⟨⟨by simpa using named, others _ List.mem_cons_self⟩, ?_, Prod.ext ready rfl⟩
        intro absent
        rw [if_neg (by simpa using absent)] at fit
        simpa using fit
      · rw [guarded, refused] at same
        cases same
        exact ⟨Or.inl rfl, by simp [Except.bind]⟩
    · rw [unfit] at same
      cases same
      refine ⟨Or.inr ⟨Or.inr ?_, rfl⟩, by simp⟩
      obtain ⟨name, member, among⟩ := odd
      cases List.mem_singleton.mp member
      split at among
      · cases among
      · exact among
  · rw [unusable] at ran
    obtain ⟨rfl, rfl⟩ := ran.of_pure
    exact ⟨Or.inr ⟨Or.inl (by simpa using odd), rfl⟩, by simp⟩

theorem waitPauses_of_ensured {ready : Store} {dimension attempts : Int}
    (ensured : s.ensureIndex dimension attempts = (.ok (), ready)) : ready.waitPauses attempts = 0 := by
  have isReady : ready.readyInfo?.isSome = true := by
    simp only [Store.ensureIndex] at ensured
    split at ensured
    · simp at ensured
    · rename_i other _
      rw [Prod.mk.injEq] at ensured
      obtain ⟨awaited, rfl⟩ := ensured
      cases found : other.readyInfo? with
      | none => simp [Store.awaitReady, found, Except.map] at awaited
      | some info => rfl
  rw [Store.waitPauses, if_pos isReady]

theorem Ensured.run {ready : Store} (ensured : Ensured c s ready) (o : Outside (StateM σ)) :
    (o.backend c).ensureIndex.run s = pure (.ok (), ready) := by
  have isNamed : needed c.store.unfit ["index_name"] = .ok () :=
    Summary.needed_of_fit (by simpa using ensured.usable.1)
  have isTried : needed c.store.unfit ["ready_attempts"] = .ok () :=
    Summary.needed_of_fit (by simpa using ensured.usable.2)
  have isSized : needed (if s.indexes.contains s.index then [] else c.embeddings.unfit) ["dim"] = .ok () := by
    apply Summary.needed_of_fit
    split
    · simp
    · rename_i absent
      simpa using ensured.dimension (by simpa using absent)
  change (o.ensureIndex c).run s = _
  rw [Outside.ensureIndex, guarded, isNamed]
  dsimp only [StateT.run]
  rw [ensured.ensured, waitPauses_of_ensured ensured.ensured, isSized, if_pos rfl, guarded, isTried]
  rfl

theorem countRows_ran {result : Except Failure Nat}
    (ran : Ran ((o.backend c).countRows nspace) s result s') :
    result = Store.countRows s.current nspace ∧ s' = s := by
  obtain ⟨read, middle, looked, last⟩ := ran.of_bind
  obtain ⟨rfl, rfl⟩ := looked.of_get
  exact last.of_pure

theorem upsert_storesInto (o : Outside (StateM σ)) (c : Configuration) (nspace : String) :
    Index.StoresInto Store.current nspace ((o.backend c).upsert nspace) where
  ok := by
    intro rows s s' ran
    obtain ⟨read, middle, looked, next⟩ := ran.of_bind
    rw [looked.of_get.1, looked.of_get.2] at next
    cases put : Store.upsert s.current nspace rows with
    | error failure =>
        simp only [put] at next
        have failed := next.of_pure.1
        simp at failed
    | ok stored =>
        obtain ⟨n, db⟩ := stored
        simp only [put] at next
        obtain ⟨_, set, setting, last⟩ := next.of_bind
        obtain ⟨_, rfl⟩ := last.of_pure
        obtain rfl := setting.of_modify
        exact ⟨n, by rw [Store.current_setCurrent]⟩
  error := by
    intro rows s failure s' ran
    obtain ⟨read, middle, looked, next⟩ := ran.of_bind
    rw [looked.of_get.1, looked.of_get.2] at next
    cases put : Store.upsert s.current nspace rows with
    | error other =>
        simp only [put] at next
        rw [next.of_pure.2]
    | ok stored =>
        obtain ⟨n, db⟩ := stored
        simp only [put] at next
        obtain ⟨_, set, _, last⟩ := next.of_bind
        have failed := last.of_pure.1
        simp at failed

end Outside

end Groundwork
