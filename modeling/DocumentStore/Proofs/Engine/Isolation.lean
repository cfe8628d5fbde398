import DocumentStore.Proofs.Engine.Properties
import DocumentStore.Proofs.Engine.Resident
import DocumentStore.Proofs.Heap.Mutation

/-!
Contract: stored data are out of the reach of an engine's callers.

Owns: programs whose callers and whose engine have their containers in one store, the values
that callers know, the runs in which callers build, change and ask, and what an engine answers
after them.

Does not own: how a single request is answered.

Callers get to a container through what they keep, never by its number. `Isolated` is what every
step of a run preserves: the known containers refer to each other only, and the engine, which
has none of them, is the engine of trees after the same requests.
-/

set_option autoImplicit false

namespace DocumentStore

/-! ### Answers -/

namespace Outcome

/-- The values that an answer hands out. Only a record refers to containers. -/
def values (outcome : Outcome) : List Value :=
  match outcome.result with
  | .ok (.record record) => record.data.leaves
  | _ => []

/-- The version and the tree that a load answers, or its failure. -/
def reading (store : Store) (outcome : Outcome) : Except Failure (Option (SaveResult × Tree)) :=
  match outcome.result with
  | .error failure => .error failure
  | .ok (.record record) =>
      let (value, after) := store.place record.data
      .ok (some (⟨record.identifier, record.revision, record.sequence⟩, after.unfold value))
  | .ok _ => .ok none

end Outcome

/-- What an engine answers about its documents, its blobs and its indexes. -/
@[ext] structure Answers where
  documents : Address → String → Except Failure (Option (SaveResult × Tree))
  contents : Address → String → String → Except Failure Digest.Bytes
  definitions : Address → String → Option Tree

/-- The answers of the engine of trees. A load goes through text, and a number of too many digits
has none. -/
def Memory.answers [Machine] (memory : Memory) : Answers where
  documents := fun collection identifier =>
    match (memory.step (.getDocument collection identifier)).1.reading .empty with
    | .ok (some (version, tree)) => (tree.throughText false).map fun _ => some (version, tree)
    | other => other
  contents := memory.blobContent
  definitions := fun collection name =>
    (Table.value? memory.indexes (collection, name)).map Json.toTree

/-- The data that a request brings. -/
def Request.data? {Data : Type} : Request Data → Option Data
  | .save _ _ data _ _ => some data
  | .createIndex _ _ definition => some definition
  | _ => none

theorem Request.map_of_dataless {Data Other : Type} (request : Request Data)
    (dataless : request.data? = none) (transform another : Data → Other) :
    request.map transform = request.map another := by
  cases request with
  | save | createIndex => cases dataless
  | _ => rfl

/-! ### Programs -/

/-- A store, the values that callers keep, and an engine that has its data in the same store. -/
structure Program where
  store : Store
  kept : List Value
  engine : Resident

namespace Program

/-- A program in which nothing was done yet. -/
def start : Program :=
  ⟨.empty, [], .empty⟩

section Steps

variable (program : Program)

/-- What callers can refer to: anything that is no container, and the containers they reach. -/
def Knows (value : Value) : Prop :=
  ∀ ref, value = .cell ref → program.store.Reaches program.kept (.cell ref)

/-- A value kept on its own, so that it stays known when its container lets go of it. -/
def keep (value : Value) : Program :=
  { program with kept := value :: program.kept }

/-- New containers. -/
def build (draft : Draft) : Program :=
  let (value, store) := program.store.place draft
  { program with store, kept := value :: program.kept }

/-- A container changed in place. -/
def change (mutation : Mutation) : Program :=
  { program with store := mutation.apply program.store }

/-- A request, and what it hands out. -/
def ask [Machine] (request : Request Value) : Program :=
  let turn := program.engine.step program.store request
  ⟨turn.store, turn.outcome.values ++ program.kept, turn.engine⟩

/-- What the engine answers. -/
def answers : Answers where
  documents := fun collection identifier =>
    let turn := program.engine.load program.store collection identifier
    turn.outcome.reading turn.store
  contents := program.engine.blobContent program.store
  definitions := fun collection name =>
    (Table.value? program.engine.indexes (collection, name)).map program.store.unfold

/-- A run of callers, with the requests that were put in it. Their data are taken down as the
trees that they were at this time. -/
inductive Runs [Machine] : List (Request Tree) → Program → Prop where
  | rest : Runs [] program
  | keep {asked : List (Request Tree)} {between : Program} {value : Value}
      (before : Runs asked between) (known : between.Knows value) :
      Runs asked (between.keep value)
  | build {asked : List (Request Tree)} {between : Program} {draft : Draft}
      (before : Runs asked between) (known : ∀ value ∈ draft.leaves, between.Knows value) :
      Runs asked (between.build draft)
  | change {asked : List (Request Tree)} {between : Program} {mutation : Mutation}
      (before : Runs asked between) (known : between.Knows (.cell mutation.target))
      (brought : ∀ value ∈ mutation.brings, between.Knows value) :
      Runs asked (between.change mutation)
  | ask {asked : List (Request Tree)} {between : Program} (before : Runs asked between)
      (request : Request Value) :
      Runs (asked ++ [request.map between.store.unfold]) (between.ask request)

end Steps

/-! ### Isolation -/

/-- What callers know are cells that refer to each other only, and the engine, with none of these,
is the engine of trees. -/
structure Isolated (program : Program) (mine : Ref → Prop) (memory : Memory) : Prop where
  closed : program.store.Closed mine
  kept : ∀ value ∈ program.kept, value.Within mine
  mirrors : program.engine.Mirrors program.store mine memory

theorem isolated_start : start.Isolated (fun _ => False) Memory.empty where
  closed := ⟨fun _ impossible => impossible.elim, fun _ _ impossible => impossible.elim⟩
  kept := fun _ member => nomatch member
  mirrors := Resident.mirrors_empty _ _

section Isolation

variable {program after : Program} {mine : Ref → Prop} {memory : Memory}
  {asked : List (Request Tree)} {value : Value} {collection : Address} {identifier : String}

theorem Isolated.within (isolated : program.Isolated mine memory) (known : program.Knows value) :
    value.Within mine := by
  intro ref same
  exact isolated.closed.reaches isolated.kept (known ref same) ref rfl

/-- Whatever is done to the cells that callers know, and to new ones, leaves the engine alone. -/
theorem Isolated.of_changesOnly (isolated : program.Isolated mine memory) {store : Store}
    {grown : Ref → Prop} (changes : program.store.ChangesOnly store mine grown)
    (arriving : List Value) (within : ∀ value ∈ arriving, value.Within grown) :
    Isolated ⟨store, arriving ++ program.kept, program.engine⟩ grown memory where
  closed := changes.closed
  kept := by
    rw [List.forall_mem_append]
    exact ⟨within, fun value member => (isolated.kept value member).mono changes.keeps⟩
  mirrors := isolated.mirrors.of_changesOnly changes

theorem Isolated.keep (isolated : program.Isolated mine memory) (known : program.Knows value) :
    (program.keep value).Isolated mine memory := by
  apply isolated.of_changesOnly (.refl isolated.closed) [value]
  intro other member
  rw [List.mem_singleton.1 member]
  exact isolated.within known

theorem Isolated.build (isolated : program.Isolated mine memory) {draft : Draft}
    (known : ∀ value ∈ draft.leaves, program.Knows value) :
    ∃ grown, (program.build draft).Isolated grown memory := by
  obtain ⟨grown, changes, placed⟩ := Store.changesOnly_place isolated.closed draft
    fun value member => isolated.within (known value member)
  refine ⟨grown, isolated.of_changesOnly changes [_] ?_⟩
  intro other member
  rw [List.mem_singleton.1 member]
  exact placed

theorem Isolated.change (isolated : program.Isolated mine memory) {mutation : Mutation}
    (known : program.Knows (.cell mutation.target))
    (brought : ∀ value ∈ mutation.brings, program.Knows value) :
    ∃ grown, (program.change mutation).Isolated grown memory := by
  obtain ⟨grown, changes⟩ := mutation.changesOnly isolated.closed
    (isolated.within known _ rfl) fun value member => isolated.within (brought value member)
  exact ⟨grown, isolated.of_changesOnly changes [] fun _ member => nomatch member⟩

/-! ### Requests -/

theorem values_step [Machine] (memory : Memory) (request : Request Tree)
    (other : ∀ collection identifier, request ≠ .getDocument collection identifier) :
    (memory.step request).1.values = [] := by
  have plain : ∀ {Result : Type} (result : Except Failure Result) (make : Result → Reply),
      (∀ given record, make given ≠ .record record) →
        Outcome.values ⟨result.map make, []⟩ = [] := by
    intro Result result make noRecord
    unfold Outcome.values
    split
    · next record answered =>
        cases result with
        | error failure => cases answered
        | ok given => exact absurd (Except.ok.inj answered) (noRecord given record)
    · rfl
  cases request with
  | getDocument collection identifier => exact absurd rfl (other collection identifier)
  | save | deleteDocument | purgeDocument | setExpiration | getBlobContent =>
      apply plain
      rintro given record ⟨⟩
  | createIndex collection name definition =>
      simp only [Memory.step]
      split <;> rfl
  | _ => rfl

/-- What a load hands out is in containers that no caller had. -/
theorem Isolated.load_shelters (isolated : program.Isolated mine memory)
    (handedOut : value ∈ (program.engine.load program.store collection identifier).outcome.values) :
    let after := (program.engine.load program.store collection identifier).store
    after.Closed mine ∧ ∃ json, after.Shelters mine value json := by
  intro after
  rcases isolated.mirrors.load_cases collection identifier with
    ⟨_, loading⟩ | ⟨stored, _, wellKeyed, ⟨failure, _, loading⟩ | ⟨_, loading⟩⟩
  · rw [loading] at handedOut
    cases handedOut
  · rw [loading] at handedOut
    cases handedOut
  · have placed : after = (program.store.place stored.data.draft).2 := by
      simp only [after, loading]
    rw [loading] at handedOut
    rw [placed, List.mem_singleton.1 handedOut]
    have extension := Store.extends_place program.store stored.data.draft
    exact ⟨(Store.ChangesOnly.of_extends isolated.closed extension).closed, stored.data,
      Store.shelters_place isolated.closed wellKeyed⟩

theorem Isolated.load_separate (isolated : program.Isolated mine memory)
    (handedOut : value ∈ (program.engine.load program.store collection identifier).outcome.values)
    {other : Value} (member : other ∈ program.kept) :
    (program.engine.load program.store collection identifier).store.Separate other value := by
  obtain ⟨closed, json, shelters⟩ := isolated.load_shelters handedOut
  exact shelters.separate closed (isolated.kept other member)

/-- A load leaves the engine as it is and adds what it hands out to what callers know. -/
theorem Isolated.load [Machine] (isolated : program.Isolated mine memory) (collection : Address)
    (identifier : String) :
    ∃ grown, (program.ask (.getDocument collection identifier)).Isolated grown memory := by
  unfold ask
  rw [Resident.step]
  rcases isolated.mirrors.load_cases collection identifier with
    ⟨_, loading⟩ | ⟨stored, _, _, ⟨failure, _, loading⟩ | ⟨_, loading⟩⟩
  · rw [loading]
    exact ⟨mine, isolated⟩
  · rw [loading]
    exact ⟨mine, isolated⟩
  · rw [loading]
    obtain ⟨grown, changes, placed⟩ := Store.changesOnly_place isolated.closed stored.data.draft
      (stored.data.within_leaves_draft mine)
    refine ⟨grown, isolated.of_changesOnly changes [_] ?_⟩
    intro other member
    rw [List.mem_singleton.1 member]
    exact placed

theorem Isolated.ask [Machine] (isolated : program.Isolated mine memory) (request : Request Value) :
    ∃ grown, (program.ask request).Isolated grown
      (memory.step (request.map program.store.unfold)).2 := by
  by_cases loading : ∃ collection identifier, request = .getDocument collection identifier
  · obtain ⟨collection, identifier, rfl⟩ := loading
    have same : (memory.step (.getDocument collection identifier)).2 = memory := by
      rw [Memory.step]
      split <;> rfl
    rw [Request.map, same]
    exact isolated.load collection identifier
  · have other : ∀ collection identifier, request ≠ .getDocument collection identifier := by
      rintro collection identifier rfl
      exact loading ⟨collection, identifier, rfl⟩
    have follows := Resident.follows_step isolated.mirrors isolated.closed request other
    have silent : (program.engine.step program.store request).outcome.values = [] := by
      rw [follows.outcome]
      apply values_step
      intro collection identifier mapped
      cases request <;> cases mapped
      exact other _ _ rfl
    refine ⟨mine, follows.changes.closed, ?_, follows.mirrors⟩
    rw [Program.ask, silent]
    exact isolated.kept

/-! ### Runs -/

/-- Every run keeps the engine isolated, and leaves it as the engine of trees is left by the
requests of the run. -/
theorem Isolated.runs [Machine] (isolated : program.Isolated mine memory)
    (runs : program.Runs asked after) :
    ∃ grown, after.Isolated grown (memory.afterRun asked) := by
  induction runs with
  | rest => exact ⟨mine, isolated⟩
  | keep _ known inductionHypothesis =>
      obtain ⟨grown, between⟩ := inductionHypothesis
      exact ⟨grown, between.keep known⟩
  | build _ known inductionHypothesis =>
      obtain ⟨grown, between⟩ := inductionHypothesis
      exact between.build known
  | change _ known brought inductionHypothesis =>
      obtain ⟨grown, between⟩ := inductionHypothesis
      exact between.change known brought
  | ask _ request inductionHypothesis =>
      obtain ⟨grown, between⟩ := inductionHypothesis
      rw [Memory.afterRun_append]
      exact between.ask request

theorem kept_subset_of_runs [Machine] (runs : program.Runs asked after) :
    program.kept ⊆ after.kept := by
  induction runs with
  | rest => exact fun _ member => member
  | keep _ _ earlier | build _ _ earlier =>
      exact fun _ member => List.mem_cons_of_mem _ (earlier member)
  | change _ _ _ earlier => exact earlier
  | ask _ _ earlier => exact fun _ member => List.mem_append_right _ (earlier member)

/-! ### Answers of an isolated engine -/

theorem reading_eq {store : Store} {stored : Json} (wellKeyed : stored.WellKeyed)
    (identifier : String) (sequence : Int) (revision : Option String) :
    Outcome.reading store (.answer (.record ⟨identifier, sequence, revision, stored.draft⟩)) =
      .ok (some (⟨identifier, revision, sequence⟩, stored.toTree)) := by
  rw [Outcome.answer, Outcome.reading]
  dsimp only
  rw [Store.unfold_place store wellKeyed]

/-- An isolated engine answers as the engine of trees. -/
theorem Isolated.answers_eq [Machine] (isolated : program.Isolated mine memory) :
    program.answers = memory.answers := by
  have documents : program.answers.documents = memory.answers.documents := by
    funext collection identifier
    simp only [answers, Memory.answers, Memory.step]
    rcases isolated.mirrors.load_cases collection identifier with
      ⟨absent, loading⟩ |
        ⟨stored, found, wellKeyed, ⟨failure, copying, loading⟩ | ⟨copying, loading⟩⟩
    · rw [absent, loading]
      rfl
    · rw [found, loading]
      simp only [Memory.record, reading_eq wellKeyed, copying]
      rfl
    · rw [found, loading]
      have unfolded := Store.unfold_place program.store wellKeyed
      simp only [Memory.record, reading_eq wellKeyed, copying]
      simp only [Outcome.reading, Outcome.answer, Store.place, unfolded]
      rfl
  have contents : program.answers.contents = memory.answers.contents := by
    funext collection identifier key
    exact isolated.mirrors.blobContent_eq key
  have definitions : program.answers.definitions = memory.answers.definitions := by
    funext collection name
    simp only [answers, Memory.answers]
    cases found : Table.value? program.engine.indexes (collection, name) with
    | none => rw [isolated.mirrors.indexes.value?_eq_none found, Option.map_none, Option.map_none]
    | some value =>
        obtain ⟨json, foundThere, shelters⟩ := isolated.mirrors.indexes.value?_eq_some found
        rw [foundThere, Option.map_some, Option.map_some, shelters.unfold_eq]
  exact Answers.ext documents contents definitions

end Isolation

/-! ### Data out of reach -/

/-- In any run, the engine answers as the engine of trees that was given what the callers' data
unfolded to when they were brought. So whatever callers build and change afterwards shows in no
later answer, unless a save or the creation of an index brings it. Nothing that a load hands out
stands at two positions, and no container of it is in anything that callers had, such as the data
of an earlier load. -/
theorem callers_do_not_reach_stored_data [Machine] {asked : List (Request Tree)} {program : Program}
    (reached : start.Runs asked program) :
    (program.answers = (Memory.empty.afterRun asked).answers
      ∧ ∀ request : Request Value,
        (∀ collection identifier, request ≠ .getDocument collection identifier) →
          (program.engine.step program.store request).outcome =
            (DocumentEngine.perform program.store request (Memory.empty.afterRun asked)).1)
    ∧ (∀ changed, program.Runs [] changed →
        changed.answers = program.answers
          ∧ (∀ request : Request Value, request.data? = none →
            (changed.ask request).answers = (program.ask request).answers)
          ∧ ∀ later one two, program.Runs later one → changed.Runs later two →
            two.answers = one.answers)
    ∧ ∀ collection identifier,
        let turn := program.engine.load program.store collection identifier
        ∀ value ∈ turn.outcome.values,
          turn.store.Unshared value
            ∧ (∀ other ∈ program.kept, turn.store.Separate other value)
            ∧ ∀ later after, (program.ask (.getDocument collection identifier)).Runs later after →
                let again := after.engine.load after.store collection identifier
                ∀ second ∈ again.outcome.values, again.store.Separate value second := by
  obtain ⟨mine, isolated⟩ := isolated_start.runs reached
  have sameRequests : ∀ changed, program.Runs [] changed → ∀ later one two,
      program.Runs later one → changed.Runs later two → two.answers = one.answers := by
    intro changed changes later one two oneRuns twoRuns
    obtain ⟨_, isolatedChanged⟩ := isolated.runs changes
    obtain ⟨_, isolatedOne⟩ := isolated.runs oneRuns
    obtain ⟨_, isolatedTwo⟩ := isolatedChanged.runs twoRuns
    exact isolatedTwo.answers_eq.trans isolatedOne.answers_eq.symm
  refine ⟨⟨isolated.answers_eq, ?_⟩, ?_, ?_⟩
  · intro request other
    exact (Resident.follows_step isolated.mirrors isolated.closed request other).outcome
  · intro changed changes
    refine ⟨sameRequests changed changes [] program changed .rest .rest, ?_,
      sameRequests changed changes⟩
    intro request dataless
    have asking : changed.Runs [request.map changed.store.unfold] (changed.ask request) :=
      .ask .rest request
    rw [request.map_of_dataless dataless changed.store.unfold program.store.unfold] at asking
    exact sameRequests changed changes _ _ _ (.ask .rest request) asking
  · intro collection identifier turn value handedOut
    obtain ⟨_, json, shelters⟩ := isolated.load_shelters handedOut
    refine ⟨shelters.unshared, ?_, ?_⟩
    · intro other member
      exact isolated.load_separate handedOut member
    · intro later after laterRuns again second handedOutAgain
      obtain ⟨_, loaded⟩ := isolated.load collection identifier
      obtain ⟨_, isolatedAfter⟩ := loaded.runs laterRuns
      have kept : value ∈ after.kept :=
        kept_subset_of_runs laterRuns (List.mem_append_left _ handedOut)
      exact isolatedAfter.load_separate handedOutAgain kept

/-- A program that built a bag with one array under two keys. -/
def builtTrip : Program :=
  (start.build (.array [])).build
    (.object [("days", .value (.cell 0)), ("nights", .value (.cell 0))])

/-- The same program after it saved the bag. -/
def savedTrip : Program :=
  builtTrip.ask (.save Memory.notes "trip" (.cell 1) none 0)

/-- The same program after it appended to the array. -/
def lengthenedTrip : Program :=
  savedTrip.change (.append 0 (.integer 7))

/-- The tree of the bag when it was saved. -/
def tripBag : Json :=
  .object [("days", .array []), ("nights", .array [])]

theorem runs_builtTrip : start.Runs [] builtTrip := by
  have array : start.Runs [] (start.build (.array [])) := .build .rest fun _ member => nomatch member
  apply Runs.build array
  intro value member ref same
  have shared : value = .cell 0 := by simpa [Draft.leaves, Draft.leavesOfFields] using member
  cases shared.symm.trans same
  exact .kept (List.mem_singleton_self _)

theorem runs_savedTrip : start.Runs [.save Memory.notes "trip" tripBag.toTree none 0] savedTrip :=
  .ask runs_builtTrip (.save Memory.notes "trip" (.cell 1) none 0)

theorem runs_lengthenedTrip : savedTrip.Runs [] lengthenedTrip := by
  apply Runs.change .rest
  · rintro ref ⟨⟩
    have built : Value.cell 0 ∈ builtTrip.kept := List.mem_cons_of_mem _ (List.mem_singleton_self _)
    exact .kept (List.mem_append_right _ built)
  · intro value member ref same
    cases (List.mem_singleton.1 member).symm.trans same

theorem lengthened_array_does_not_show :
    start.Runs [.save Memory.notes "trip" tripBag.toTree none 0] savedTrip
      ∧ savedTrip.Runs [] lengthenedTrip
      ∧ lengthenedTrip.answers.documents Memory.notes "trip" =
        .ok (some (Memory.resultOf (Memory.empty.nextVersion Memory.notes "trip" tripBag),
          tripBag.toTree)) := by
  have form : tripBag.toTree.storedForm = .ok tripBag := by
    rw [Tree.storedForm, Tree.throughText_eq]
    rfl
  have copying : tripBag.toTree.throughText false = .ok tripBag := by
    rw [Tree.throughText_eq]
    rfl
  have free : Memory.empty.hasConflict Memory.notes "trip" none 0 = false := rfl
  have stored := Memory.document?_step_save free form
  have isolated := callers_do_not_reach_stored_data runs_savedTrip
  refine ⟨runs_savedTrip, runs_lengthenedTrip, ?_⟩
  rw [(isolated.2.1 _ runs_lengthenedTrip).1, isolated.1.1, Memory.afterRun_cons,
    Memory.afterRun_nil]
  generalize (Memory.empty.step _).2 = memory at stored ⊢
  have wellKeyed : tripBag.WellKeyed := Tree.wellKeyed_storedForm form
  simp only [Memory.answers, Memory.step, stored, Memory.record, Memory.nextVersion,
    reading_eq wellKeyed, copying]
  rfl

end Program

end DocumentStore
