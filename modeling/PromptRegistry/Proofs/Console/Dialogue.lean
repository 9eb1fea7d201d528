import Mathlib.Control.Monad.Basic
import Mathlib.Tactic.Choose
import PromptRegistry.Console.Command

/-! # What a command asks and what it writes -/

namespace PromptRegistry

inductive Exchange where
  | prompt (name : String) (answer : Compiler)
  | invalidate (names : List String) (answer : Except BatchFailure Unit)
  | createPrompt (spec : Spec) (answer : Except Failure Record)
  | readFile (path : String) (answer : Option String)

section

variable {m : Type → Type} [Monad m] {α β : Type}

def Exchange.keep (exchange : α → Exchange) (question : m α) : StateT (List Exchange) m α := do
  let answer ← question
  modify (· ++ [exchange answer])
  return answer

/-- A service of which all exchanges are kept. -/
def PromptService.recorded (service : PromptService m) :
    PromptService (StateT (List Exchange) m) where
  prompt name := Exchange.keep (.prompt name) (service.prompt name)
  invalidate names := Exchange.keep (.invalidate names) (service.invalidate names)
  createPrompt spec := Exchange.keep (.createPrompt spec) (service.createPrompt spec)

def Command.runRecorded (service : PromptService m) (readFile : String → m (Option String))
    (command : Command) : m (Report × List Exchange) :=
  (command.run service.recorded fun path => Exchange.keep (.readFile path) (readFile path)).run []

/-- Whatever a computation returns has a property: it could return nothing else. -/
def Returns (p : α → Prop) (computation : m α) : Prop :=
  ∃ restricted : m {a // p a}, Subtype.val <$> restricted = computation

theorem Returns.of_state {σ : Type} {p : α → Prop} {computation : StateM σ α}
    (h : Returns p computation) (state : σ) : p (computation.run state).1 := by
  obtain ⟨restricted, rfl⟩ := h
  exact (restricted state).1.property

variable [LawfulMonad m]

theorem Exchange.run_keep_bind (exchange : α → Exchange) (question : m α)
    (next : α → StateT (List Exchange) m β) (exchanges : List Exchange) :
    (keep exchange question >>= next).run exchanges =
      question >>= fun answer => (next answer).run (exchanges ++ [exchange answer]) := by
  simp [keep]

theorem Returns.pure {p : α → Prop} {a : α} (h : p a) : Returns p (pure a : m α) :=
  ⟨Pure.pure ⟨a, h⟩, map_pure _ _⟩

theorem Returns.imp {p q : α → Prop} {computation : m α} (h : Returns p computation)
    (himp : ∀ a, p a → q a) : Returns q computation := by
  obtain ⟨restricted, rfl⟩ := h
  refine ⟨(fun a => ⟨a.val, himp a.val a.property⟩) <$> restricted, ?_⟩
  rw [Functor.map_map]

theorem Exchange.run_map_keep (exchange : α → Exchange) (question : m α) (f : α → β)
    (exchanges : List Exchange) :
    (f <$> keep exchange question).run exchanges =
      (fun answer => (f answer, exchanges ++ [exchange answer])) <$> question := by
  simp [keep]

theorem Returns.map {p : β → Prop} {f : α → β} (question : m α) (h : ∀ answer, p (f answer)) :
    Returns p (f <$> question) := by
  refine ⟨(fun answer => ⟨f answer, h answer⟩) <$> question, ?_⟩
  rw [Functor.map_map]

theorem Returns.bind {p : β → Prop} {next : α → m β} (question : m α)
    (h : ∀ answer, Returns p (next answer)) : Returns p (question >>= next) := by
  choose restricted hrestricted using h
  refine ⟨question >>= restricted, ?_⟩
  rw [map_bind]
  simp only [hrestricted]

end

def Failure.compileFault? (failure : Failure) : Option CompileFault :=
  match failure.cause with
  | .compile fault => some fault
  | _ => none

def Failure.batchFailure? (failure : Failure) : Option BatchFailure :=
  match failure.cause with
  | .prefill names first => some ⟨names, first⟩
  | _ => none

namespace Report

def Writes (report : Report) (output : String) : Prop :=
  report.result = .ok () ∧ report.output = output

def Fails (report : Report) (failure : Failure) : Prop :=
  report.result = .error failure ∧ report.output = ""

/-- A report succeeds on a result exactly if that has a value, and then writes all of its output. It
fails exactly if the result is a fault, and the fault can be got back from the failure. -/
structure Settles {ε α : Type} (report : Report) (result : Except ε α) (output : α → String)
    (failure : ε → Failure) (fault? : Failure → Option ε) : Prop where
  writes_iff : ∀ text, report.Writes text ↔ ∃ a, result = .ok a ∧ output a = text
  fails_iff : ∀ cause, report.Fails cause ↔ ∃ fault, result = .error fault ∧ failure fault = cause
  recovers : ∀ fault, fault? (failure fault) = some fault

section

variable {ε α : Type} {report : Report} {output : α → String} {failure : ε → Failure}
  {fault? : Failure → Option ε}

theorem Settles.of_ok {a : α} (h : report.Writes (output a))
    (hrecovers : ∀ fault, fault? (failure fault) = some fault) :
    report.Settles (.ok a) output failure fault? := by
  constructor
  · intro text
    simp [Writes, h.1, h.2]
  · intro cause
    simp [Fails, h.1]
  · exact hrecovers

theorem Settles.of_error {fault : ε} (h : report.Fails (failure fault))
    (hrecovers : ∀ fault, fault? (failure fault) = some fault) :
    report.Settles (.error fault) output failure fault? := by
  constructor
  · intro text
    simp [Writes, h.1]
  · intro cause
    simp [Fails, h.1, h.2]
  · exact hrecovers

theorem Settles.all_or_nothing {result : Except ε α}
    (h : report.Settles result output failure fault?) :
    (∃ text, report.Writes text) ∨ ∃ cause, report.Fails cause := by
  cases result with
  | ok a => exact .inl ⟨_, (h.writes_iff _).mpr ⟨a, rfl, rfl⟩⟩
  | error fault => exact .inr ⟨_, (h.fails_iff _).mpr ⟨fault, rfl, rfl⟩⟩

end

end Report

namespace Command

/-- How a command can end: the questions it has put with their answers, and its report. -/
inductive Concludes : Command → List Exchange → Report → Prop
  | text {name : String} {bindings : List (String × String)} {compiler : Compiler} {report : Report}
      (h : report.Settles (compiler.compileText (Index.ofList bindings)) (fun text => text ++ "\n")
        (fun fault => .context ("Failed to compile text prompt: " ++ name) (.compile fault))
        Failure.compileFault?) :
      Concludes (.get name bindings false) [.prompt name compiler] report
  | chat {name : String} {bindings : List (String × String)} {compiler : Compiler} {report : Report}
      (h : report.Settles (compiler.compileChat (Index.ofList bindings))
        (fun messages => String.join (messages.map fun message =>
          message.role ++ ": " ++ message.content ++ "\n"))
        (fun fault => .context ("Failed to compile chat prompt: " ++ name) (.compile fault))
        Failure.compileFault?) :
      Concludes (.get name bindings true) [.prompt name compiler] report
  | warm {names : List String} {answer : Except BatchFailure Unit} {report : Report}
      (h : report.Settles answer
        (fun _ => "Fetched " ++ toString names.length ++ " prompt(s)\n")
        (fun batch => .prefill batch.names batch.first) Failure.batchFailure?) :
      Concludes (.warm names) [.invalidate names answer] report
  | unread {path : String} {report : Report}
      (h : report.Fails (.context ("Failed to read " ++ path) .file)) :
      Concludes (.create path) [.readFile path none] report
  | undecoded {path text : String} {fault : Json.Fault} {report : Report}
      (hspec : Spec.decoder.run text = .error fault)
      (h : report.Fails (.context ("Invalid prompt spec in " ++ path) (.json fault))) :
      Concludes (.create path) [.readFile path (some text)] report
  | created {path text : String} {spec : Spec} {answer : Except Failure Record} {report : Report}
      (hspec : Spec.decoder.run text = .ok spec)
      (h : report.Settles answer (fun record => record.json.pretty ++ "\n") id some) :
      Concludes (.create path) [.readFile path (some text), .createPrompt spec answer] report

theorem Concludes.all_or_nothing {command : Command} {exchanges : List Exchange} {report : Report}
    (h : command.Concludes exchanges report) :
    (∃ text, report.Writes text) ∨ ∃ failure, report.Fails failure := by
  cases h with
  | text h => exact h.all_or_nothing
  | chat h => exact h.all_or_nothing
  | warm h => exact h.all_or_nothing
  | unread h => exact .inr ⟨_, h⟩
  | undecoded hspec h => exact .inr ⟨_, h⟩
  | created hspec h => exact h.all_or_nothing

theorem Concludes.createPrompt_mem_iff {path : String} {spec : Spec} {exchanges : List Exchange}
    {report : Report} (h : (create path).Concludes exchanges report) :
    (∃ answer, .createPrompt spec answer ∈ exchanges) ↔
      ∃ text, .readFile path (some text) ∈ exchanges ∧ Spec.decoder.run text = .ok spec := by
  cases h with
  | unread h => simp
  | undecoded hspec h => simp [hspec]
  | created hspec h => simp [hspec, eq_comm]

def getReport (name : String) (bindings : List (String × String)) (chat : Bool)
    (compiler : Compiler) : Report :=
  match compiledText compiler name (Index.ofList bindings) chat with
  | .ok text => .success text []
  | .error failure => .failure failure

def warmReport (names : List String) : Except BatchFailure Unit → Report
  | .error batch => .failure batch.failure
  | .ok () =>
      .success ("Fetched " ++ String.ofList (decimalText names.length) ++ " prompt(s)\n")
        [.fetched names.length]

def createReport : Except Failure Record → Report
  | .error failure => .failure failure
  | .ok record => .success (record.json.pretty ++ "\n") [.created record.name record.version]

theorem concludes_get (name : String) (bindings : List (String × String)) (chat : Bool)
    (compiler : Compiler) :
    Concludes (.get name bindings chat) [.prompt name compiler]
      (getReport name bindings chat compiler) := by
  cases chat with
  | false =>
      apply Concludes.text
      rw [getReport, compiledText, if_neg Bool.false_ne_true]
      cases compiler.compileText (Index.ofList bindings) with
      | ok text => exact .of_ok ⟨rfl, rfl⟩ fun _ => rfl
      | error fault => exact .of_error ⟨rfl, rfl⟩ fun _ => rfl
  | true =>
      apply Concludes.chat
      rw [getReport, compiledText, if_pos rfl]
      cases compiler.compileChat (Index.ofList bindings) with
      | ok messages => exact .of_ok ⟨rfl, rfl⟩ fun _ => rfl
      | error fault => exact .of_error ⟨rfl, rfl⟩ fun _ => rfl

theorem concludes_warm (names : List String) (answer : Except BatchFailure Unit) :
    Concludes (.warm names) [.invalidate names answer] (warmReport names answer) := by
  apply Concludes.warm
  cases answer with
  | ok _ => exact .of_ok ⟨rfl, rfl⟩ fun _ => rfl
  | error batch => exact .of_error ⟨rfl, rfl⟩ fun _ => rfl

theorem concludes_create {path text : String} {spec : Spec}
    (hspec : Spec.decoder.run text = .ok spec) (answer : Except Failure Record) :
    Concludes (.create path) [.readFile path (some text), .createPrompt spec answer]
      (createReport answer) := by
  apply Concludes.created hspec
  cases answer with
  | ok record => exact .of_ok ⟨rfl, rfl⟩ fun _ => rfl
  | error failure => exact .of_error ⟨rfl, rfl⟩ fun _ => rfl

variable {m : Type → Type} [Monad m] [LawfulMonad m] (service : PromptService m)
  (readFile : String → m (Option String))

theorem run_get_eq (name : String) (bindings : List (String × String)) (chat : Bool) :
    run service readFile (.get name bindings chat) =
      getReport name bindings chat <$> service.prompt name := by
  rw [run, runGet, map_eq_pure_bind]
  congr 1
  funext compiler
  rw [getReport]
  cases compiledText compiler name (Index.ofList bindings) chat <;> rfl

theorem run_warm_eq (names : List String) :
    run service readFile (.warm names) = warmReport names <$> service.invalidate names := by
  rw [run, runWarm, map_eq_pure_bind]
  congr 1
  funext answer
  cases answer <;> rfl

theorem run_create_eq (path : String) :
    run service readFile (.create path) = readFile path >>= fun content =>
      match readSpec path content with
      | .error failure => pure (.failure failure)
      | .ok spec => createReport <$> service.createPrompt spec := by
  rw [run, runCreate]
  congr 1
  funext content
  cases readSpec path content with
  | error failure => rfl
  | ok spec =>
      dsimp only
      rw [map_eq_pure_bind]
      congr 1
      funext answer
      cases answer <;> rfl

theorem runRecorded_get (name : String) (bindings : List (String × String)) (chat : Bool) :
    runRecorded service readFile (.get name bindings chat) =
      (fun compiler => (getReport name bindings chat compiler, [.prompt name compiler])) <$>
        service.prompt name := by
  rw [runRecorded, run_get_eq, PromptService.recorded, Exchange.run_map_keep]
  rfl

theorem runRecorded_warm (names : List String) :
    runRecorded service readFile (.warm names) =
      (fun answer => (warmReport names answer, [.invalidate names answer])) <$>
        service.invalidate names := by
  rw [runRecorded, run_warm_eq, PromptService.recorded, Exchange.run_map_keep]
  rfl

theorem runRecorded_create (path : String) :
    runRecorded service readFile (.create path) = readFile path >>= fun content =>
      match readSpec path content with
      | .error failure => pure (.failure failure, [.readFile path content])
      | .ok spec =>
          (fun answer => (createReport answer,
            [.readFile path content, .createPrompt spec answer])) <$>
              service.createPrompt spec := by
  rw [runRecorded, run_create_eq, PromptService.recorded, Exchange.run_keep_bind]
  congr 1
  funext content
  cases readSpec path content with
  | error failure => rfl
  | ok spec =>
      dsimp only
      rw [Exchange.run_map_keep]
      rfl

theorem runRecorded_concludes (command : Command) :
    Returns (fun outcome => command.Concludes outcome.2 outcome.1)
      (command.runRecorded service readFile) := by
  cases command with
  | get name bindings chat =>
      rw [runRecorded_get]
      exact .map _ (concludes_get name bindings chat)
  | warm names =>
      rw [runRecorded_warm]
      exact .map _ (concludes_warm names)
  | create path =>
      rw [runRecorded_create]
      apply Returns.bind
      intro content
      cases content with
      | none => exact .pure (.unread ⟨rfl, rfl⟩)
      | some text =>
          cases hspec : Spec.decoder.run text with
          | error fault =>
              rw [readSpec, hspec]
              exact .pure (.undecoded hspec ⟨rfl, rfl⟩)
          | ok spec =>
              rw [readSpec, hspec]
              exact .map _ (concludes_create hspec)

theorem fst_runRecorded (command : Command) :
    Prod.fst <$> command.runRecorded service readFile = command.run service readFile := by
  cases command with
  | get name bindings chat => rw [runRecorded_get, run_get_eq, Functor.map_map]
  | warm names => rw [runRecorded_warm, run_warm_eq, Functor.map_map]
  | create path =>
      rw [runRecorded_create, run_create_eq, map_bind]
      congr 1
      funext content
      cases readSpec path content with
      | error failure => exact map_pure _ _
      | ok spec => exact Functor.map_map _ _ _

/-- Whatever a service answers, a command puts its questions once and in order, the question for a
new prompt only where a specification was read. Then it writes all of its result or fails and writes
nothing, as the answers decide. -/
theorem run_is_all_or_nothing (command : Command) :
    Prod.fst <$> command.runRecorded service readFile = command.run service readFile ∧
      Returns (fun outcome : Report × List Exchange =>
          command.Concludes outcome.2 outcome.1 ∧
          ((∃ text, outcome.1.Writes text) ∨ ∃ failure, outcome.1.Fails failure) ∧
          ∀ path spec, command = .create path →
            ((∃ answer, .createPrompt spec answer ∈ outcome.2) ↔
              ∃ text, .readFile path (some text) ∈ outcome.2 ∧ Spec.decoder.run text = .ok spec))
        (command.runRecorded service readFile) := by
  refine ⟨fst_runRecorded service readFile command,
    (runRecorded_concludes service readFile command).imp fun outcome h => ?_⟩
  refine ⟨h, h.all_or_nothing, ?_⟩
  rintro path spec rfl
  exact h.createPrompt_mem_iff

/-- One of three names in a batch fails, a text is filled, and a prompt is made from a file. The
service counts how often it is asked. -/
theorem answers_decide_output :
    let failed : BatchFailure := ⟨["b"], .transport⟩
    let compiler : Compiler := ⟨some (.text "hi \x7b\x7ba\x7d\x7d")⟩
    let spec := Spec.ofBody "n" (.text "x")
    let record := spec.record "p-1" 7 .null
    let service : PromptService (StateM Nat) :=
      { prompt := fun _ asked => (compiler, asked + 1)
        invalidate := fun _ asked => (.error failed, asked + 1)
        createPrompt := fun _ asked => (.ok record, asked + 1) }
    let file := "\x7b\"name\": \"n\", \"type\": \"text\", \"prompt\": \"x\"\x7d"
    let outcome (command : Command) :=
      (command.runRecorded service fun _ => pure (some file)).run 0
    let warm : Command := .warm ["a", "a", "b"]
    let get : Command := .get "n" [("a", "0"), ("a", "1")] false
    let create : Command := .create "spec.json"
    LawfulMonad (StateM Nat) ∧
      ((outcome warm).2 = 1 ∧
        (outcome warm).1.2 = [.invalidate ["a", "a", "b"] (.error failed)] ∧
        warm.Concludes (outcome warm).1.2 (outcome warm).1.1 ∧
        (outcome warm).1.1.Fails (.prefill ["b"] .transport) ∧
        (Failure.prefill ["b"] .transport).batchFailure? = some failed) ∧
      ((outcome get).2 = 1 ∧ (outcome get).1.2 = [.prompt "n" compiler] ∧
        get.Concludes (outcome get).1.2 (outcome get).1.1 ∧
        (outcome get).1.1.Writes "hi 1\n") ∧
      (outcome create).2 = 1 ∧
      (outcome create).1.2 =
        [.readFile "spec.json" (some file), .createPrompt spec (.ok record)] ∧
      create.Concludes (outcome create).1.2 (outcome create).1.1 ∧
      (outcome create).1.1.Writes ("\x7b\n  \"id\": \"p-1\",\n  \"name\": \"n\",\n" ++
        "  \"version\": 7,\n  \"type\": \"text\",\n  \"prompt\": \"x\",\n  \"labels\": [],\n" ++
        "  \"tags\": [],\n  \"commitMessage\": null,\n  \"config\": null,\n" ++
        "  \"createdAt\": null,\n  \"updatedAt\": null,\n  \"projectId\": null,\n" ++
        "  \"createdBy\": null\n\x7d\n") := by
  intro failed compiler spec record service file outcome warm get create
  have hconcludes (command : Command) :
      command.Concludes (outcome command).1.2 (outcome command).1.1 := by
    obtain ⟨-, hreturns⟩ := run_is_all_or_nothing service (fun _ => pure (some file)) command
    exact (hreturns.of_state 0).1
  have htext : compiler.compileText (Index.ofList [("a", "0"), ("a", "1")]) = .ok "hi 1" := by
    decide +kernel
  have hspec : Spec.decoder.run file = .ok spec := by decide +kernel
  have hprinted : record.json.pretty ++ "\n" = "\x7b\n  \"id\": \"p-1\",\n  \"name\": \"n\",\n" ++
      "  \"version\": 7,\n  \"type\": \"text\",\n  \"prompt\": \"x\",\n  \"labels\": [],\n" ++
      "  \"tags\": [],\n  \"commitMessage\": null,\n  \"config\": null,\n" ++
      "  \"createdAt\": null,\n  \"updatedAt\": null,\n  \"projectId\": null,\n" ++
      "  \"createdBy\": null\n\x7d\n" := by decide +kernel
  have hget : outcome get = ((.success "hi 1\n" [], [.prompt "n" compiler]), 1) := by
    have hreport :
        getReport "n" [("a", "0"), ("a", "1")] false compiler = .success "hi 1\n" [] := by
      rw [getReport, compiledText, if_neg Bool.false_ne_true, htext]
      rfl
    simp only [outcome, get]
    rw [runRecorded_get, ← hreport]
    rfl
  have hcreate : outcome create = ((.success (record.json.pretty ++ "\n") [.created "n" 7],
      [.readFile "spec.json" (some file), .createPrompt spec (.ok record)]), 1) := by
    have hread : readSpec "spec.json" (some file) = .ok spec := by
      rw [readSpec, hspec]
      rfl
    simp only [outcome, create]
    rw [runRecorded_create, pure_bind, hread]
    rfl
  refine ⟨inferInstance, ⟨rfl, rfl, hconcludes warm, ⟨rfl, rfl⟩, rfl⟩,
    ⟨?_, ?_, hconcludes get, ?_⟩, ?_, ?_, hconcludes create, ?_⟩
  · rw [hget]
  · rw [hget]
  · rw [hget]
    exact ⟨rfl, rfl⟩
  · rw [hcreate]
  · rw [hcreate]
  · rw [hcreate, ← hprinted]
    exact ⟨rfl, rfl⟩

end Command

end PromptRegistry
