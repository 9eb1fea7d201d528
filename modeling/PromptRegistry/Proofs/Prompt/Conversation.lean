import PromptRegistry.Proofs.Prompt.Usage

namespace PromptRegistry

variable {bindings : Bindings}

theorem firstWithRole?_eq_some_iff {role content : String} {messages : List Message} :
    firstWithRole? role messages = some content ↔
      ∃ before message after, messages = before ++ message :: after ∧
        (∀ earlier ∈ before, earlier.role ≠ role) ∧ message.role = role ∧
        message.content = content := by
  rw [firstWithRole?, Option.map_eq_some_iff]
  constructor
  · intro h
    obtain ⟨message, hfound, hcontent⟩ := h
    obtain ⟨hrole, before, after, hsplit, hbefore⟩ := List.find?_eq_some_iff_append.mp hfound
    refine ⟨before, message, after, hsplit, fun earlier hearlier => ?_, eq_of_beq hrole, hcontent⟩
    simpa using hbefore earlier hearlier
  · intro h
    obtain ⟨before, message, after, hsplit, hbefore, hrole, hcontent⟩ := h
    refine ⟨message, List.find?_eq_some_iff_append.mpr ⟨beq_iff_eq.mpr hrole, before, after,
      hsplit, fun earlier hearlier => ?_⟩, hcontent⟩
    simpa using hbefore earlier hearlier

theorem firstWithRole?_eq_none_iff {role : String} {messages : List Message} :
    firstWithRole? role messages = none ↔ ∀ message ∈ messages, message.role ≠ role := by
  simp [firstWithRole?]

theorem firstWithRole?_map_fillMessage (role : String) (messages : List Message) :
    firstWithRole? role (messages.map (Compiler.fillMessage bindings)) =
      (firstWithRole? role messages).map (Template.substitute bindings) := by
  rw [firstWithRole?, firstWithRole?, List.find?_map, Option.map_map, Option.map_map]
  rfl

theorem firstWithRole?_fillMessage_eq_some_iff {role content : String} {messages : List Message} :
    firstWithRole? role (messages.map (Compiler.fillMessage bindings)) = some content ↔
      ∃ before message after, messages = before ++ message :: after ∧
        (∀ earlier ∈ before, earlier.role ≠ role) ∧ message.role = role ∧
        Template.substitute bindings message.content = content := by
  rw [firstWithRole?_map_fillMessage, Option.map_eq_some_iff]
  simp only [firstWithRole?_eq_some_iff]
  constructor
  · intro h
    obtain ⟨_, ⟨before, message, after, hsplit, hbefore, hrole, rfl⟩, hcontent⟩ := h
    exact ⟨before, message, after, hsplit, hbefore, hrole, hcontent⟩
  · intro h
    obtain ⟨before, message, after, hsplit, hbefore, hrole, hcontent⟩ := h
    exact ⟨message.content, ⟨before, message, after, hsplit, hbefore, hrole, rfl⟩, hcontent⟩

theorem Body.mem_unused_append_iff {first second : List Message} {key : String} :
    key ∈ (chat (first ++ second)).unused bindings ↔
      key ∈ (chat first).unused bindings ∧ key ∈ (chat second).unused bindings := by
  simp only [mem_unused_iff, used_chat, List.flatMap_append, List.mem_append, not_or]
  tauto

namespace Compiler

/-- How far a pass over messages has come: the messages filled and the keys used so far. -/
structure Pass where
  filled : List Message
  used : List String

namespace Pass

def start : Pass := ⟨[], []⟩

def next (bindings : Bindings) (pass : Pass) (message : Message) : Pass :=
  ⟨pass.filled ++ [fillMessage bindings message],
    pass.used ++ Template.used bindings message.content⟩

/-- Fills messages one after another. -/
def through (bindings : Bindings) (pass : Pass) (messages : List Message) : Pass :=
  messages.foldl (next bindings) pass

/-- What a message adds does not depend on what came before it. -/
theorem through_eq (pass : Pass) (messages : List Message) :
    pass.through bindings messages =
      ⟨pass.filled ++ messages.map (fillMessage bindings),
        pass.used ++ messages.flatMap fun message => Template.used bindings message.content⟩ := by
  induction messages generalizing pass with
  | nil => simp [through]
  | cons message messages ih =>
      have hnext := ih (pass.next bindings message)
      rw [through] at hnext ⊢
      rw [List.foldl_cons, hnext]
      simp [next]

end Pass

variable {messages : List Message}

/-- The keys are checked once, at the end of the pass. -/
theorem compileChat_eq_pass (hmessages : messages ≠ []) :
    compileChat ⟨some (.chat messages)⟩ bindings =
      (requireUsed bindings (Pass.start.through bindings messages).used).map fun _ =>
        (Pass.start.through bindings messages).filled := by
  rw [compileChat_of_ne_nil hmessages, Pass.through_eq]
  rfl

theorem compileChat_eq_ok_iff (hmessages : messages ≠ []) {output : List Message} :
    compileChat ⟨some (.chat messages)⟩ bindings = .ok output ↔
      (∀ key ∈ bindings.keys, ∃ message ∈ messages,
        key ∈ Template.used bindings message.content) ∧
      output = messages.map (fillMessage bindings) := by
  have hused : (∀ key ∈ bindings.keys, ∃ message ∈ messages,
      key ∈ Template.used bindings message.content) ↔ requireUsed bindings
        (messages.flatMap fun message => Template.used bindings message.content) = .ok () := by
    simp only [requireUsed_eq_ok_iff, List.mem_flatMap]
  rw [compileChat_of_ne_nil hmessages, hused]
  cases requireUsed bindings
    (messages.flatMap fun message => Template.used bindings message.content) <;>
      simp [Except.map, eq_comm]

theorem compileChat_singleton {content : String} (hcontent : content ≠ "") (role : String) :
    compileChat ⟨some (.chat [⟨role, content⟩])⟩ bindings =
      (compileText ⟨some (.text content)⟩ bindings).map fun text => [Message.mk role text] := by
  rw [compileChat_of_ne_nil (List.cons_ne_nil _ _), compileText_of_ne_empty hcontent,
    List.flatMap_singleton]
  cases requireUsed bindings (Template.used bindings content) <;> rfl

theorem compileText_fault {content : String} (hcontent : content ≠ "") {fault : CompileFault}
    (h : compileText ⟨some (.text content)⟩ bindings = .error fault) :
    ∃ key, fault = .unknownVariable key := by
  have hbody : (Body.text content).isEmpty = false := by simpa [Body.isEmpty] using hcontent
  have hcompile : compile ⟨some (.text content)⟩ bindings (Body.text content).kind =
      .error fault := by
    rw [Body.kind, compile, h]
    rfl
  obtain ⟨key, -, -, hkey⟩ := (compile_eq_error_iff hbody).mp hcompile
  exact ⟨key, hkey⟩

/-- Messages are compiled one after another, each like its content alone, and the keys are checked
at the end. So compiling succeeds when each key is used by some message, and of a conversation in
two parts the keys that are missed are those that both parts miss. -/
theorem compileChat_fills_each_message {messages : List Message} (hmessages : messages ≠ [])
    (bindings : Bindings) :
    let compiler : Compiler := ⟨some (.chat messages)⟩
    let pass := Pass.start.through bindings messages
    compiler.compileChat bindings = (requireUsed bindings pass.used).map (fun _ => pass.filled) ∧
      (∀ output : List Message, compiler.compileChat bindings = .ok output →
        output.length = messages.length ∧
        (∀ (position : Nat) (message : Message), messages[position]? = some message →
          output[position]? =
            some ⟨message.role, Template.substitute bindings message.content⟩) ∧
        ∀ role,
          (∀ content, firstWithRole? role output = some content ↔
            ∃ before message after, messages = before ++ message :: after ∧
              (∀ earlier ∈ before, earlier.role ≠ role) ∧ message.role = role ∧
              Template.substitute bindings message.content = content) ∧
          (firstWithRole? role output = none ↔ ∀ message ∈ messages, message.role ≠ role)) ∧
      ((∃ output, compiler.compileChat bindings = .ok output) ↔
        ∀ key ∈ bindings.keys, ∃ message ∈ messages,
          key ∈ Template.used bindings message.content) ∧
      (∀ first second : List Message, messages = first ++ second → ∀ key,
        key ∈ (Body.chat messages).unused bindings ↔
          key ∈ (Body.chat first).unused bindings ∧ key ∈ (Body.chat second).unused bindings) ∧
      ∀ role content, content ≠ "" →
        compileChat ⟨some (.chat [⟨role, content⟩])⟩ bindings =
          (compileText ⟨some (.text content)⟩ bindings).map (fun text => [Message.mk role text]) ∧
        ∀ fault, compileText ⟨some (.text content)⟩ bindings = .error fault →
          ∃ key, fault = .unknownVariable key := by
  intro compiler pass
  refine ⟨compileChat_eq_pass hmessages, fun output houtput => ?_, ?_, ?_, ?_⟩
  · obtain ⟨-, rfl⟩ := (compileChat_eq_ok_iff hmessages).mp houtput
    refine ⟨List.length_map _, fun position message hmessage => ?_, fun role =>
      ⟨fun content => firstWithRole?_fillMessage_eq_some_iff, ?_⟩⟩
    · rw [List.getElem?_map, hmessage]
      rfl
    · rw [firstWithRole?_map_fillMessage, Option.map_eq_none_iff, firstWithRole?_eq_none_iff]
  · simp only [compiler, compileChat_eq_ok_iff hmessages, exists_and_left, exists_eq, and_true]
  · rintro first second rfl key
    exact Body.mem_unused_append_iff
  · exact fun role content hcontent =>
      ⟨compileChat_singleton hcontent role, fun _ => compileText_fault hcontent⟩

theorem braces_do_not_join_messages :
    let first : List Message := [⟨"\x7b\x7ba\x7d\x7d", "\x7b\x7b"⟩, ⟨"user", "a\x7d\x7d"⟩]
    let second : List Message := [⟨"user", "\x7b\x7bb\x7d\x7d"⟩]
    let filled : List Message :=
      [⟨"\x7b\x7ba\x7d\x7d", "\x7b\x7b"⟩, ⟨"user", "a\x7d\x7d"⟩, ⟨"user", "2"⟩]
    let bindings : Bindings := Index.ofList [("b", "2")]
    let more : Bindings := Index.ofList [("b", "2"), ("a", "1")]
    let compiler : Compiler := ⟨some (.chat (first ++ second))⟩
    first ++ second ≠ [] ∧ compiler.compileChat bindings = .ok filled ∧
      filled[1]? = some ⟨"user", Template.substitute bindings "a\x7d\x7d"⟩ ∧
      (first ++ second)[1]? = some ⟨"user", "a\x7d\x7d"⟩ ∧
      firstWithRole? "user" filled = some "a\x7d\x7d" ∧ firstWithRole? "system" filled = none ∧
      "a" ∈ (Body.chat (first ++ second)).unused more ∧
      "a" ∈ (Body.chat first).unused more ∧ "a" ∈ (Body.chat second).unused more ∧
      "\x7b\x7bb\x7d\x7d" ≠ "" ∧
      compileText ⟨some (.text "\x7b\x7bb\x7d\x7d")⟩ more = .error (.unknownVariable "a") ∧
      compileChat ⟨some (.chat [⟨"user", "\x7b\x7bb\x7d\x7d"⟩])⟩ more =
        .error (.unknownVariable "a") := by
  intro first second filled bindings more compiler
  have hmessages : first ++ second ≠ [] := List.cons_ne_nil _ _
  have hfilled : compiler.compileChat bindings = .ok filled := by decide +kernel
  have hsecond : (first ++ second)[1]? = some ⟨"user", "a\x7d\x7d"⟩ := rfl
  have hunused : "a" ∈ (Body.chat (first ++ second)).unused more := by decide +kernel
  have hcontent : "\x7b\x7bb\x7d\x7d" ≠ "" := by decide
  have htext : compileText ⟨some (.text "\x7b\x7bb\x7d\x7d")⟩ more =
      .error (.unknownVariable "a") := by decide +kernel
  obtain ⟨-, houtput, -, -, -⟩ := compileChat_fills_each_message hmessages bindings
  obtain ⟨-, -, -, hsplit, hsingle⟩ := compileChat_fills_each_message hmessages more
  obtain ⟨-, hposition, hrole⟩ := houtput filled hfilled
  have huser : firstWithRole? "user" filled = some "a\x7d\x7d" :=
    ((hrole "user").1 _).mpr ⟨[⟨"\x7b\x7ba\x7d\x7d", "\x7b\x7b"⟩], ⟨"user", "a\x7d\x7d"⟩, second,
      rfl, by decide, rfl, by decide +kernel⟩
  have hsystem : firstWithRole? "system" filled = none := (hrole "system").2.mpr (by decide)
  have hparts := (hsplit first second rfl "a").mp hunused
  have hchat := (hsingle "user" _ hcontent).1
  exact ⟨hmessages, hfilled, hposition 1 _ hsecond, hsecond, huser, hsystem, hunused,
    hparts.1, hparts.2, hcontent, htext, by rw [hchat, htext]; rfl⟩

end Compiler

end PromptRegistry
