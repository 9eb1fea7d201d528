import Mathlib.Data.List.Dedup
import Mathlib.Data.List.Induction
import Mathlib.Data.List.Nodup
import PromptRegistry.Proofs.Cache.Store
import PromptRegistry.Proofs.Index.Lookup

/-! # The cache as a log -/

namespace PromptRegistry

def Message.agrees (first second : Message) : Bool :=
  first.role == second.role && first.content == second.content

/-- Texts agree by value, chats message by message in order. A text agrees with no chat. -/
def Body.agrees : Body → Body → Bool
  | .text first, .text second => first == second
  | .chat first, .chat second => first.isEqv second Message.agrees
  | _, _ => false

private theorem messages_agree_iff {first second : List Message} :
    first.isEqv second Message.agrees = true ↔ first = second := by
  induction first generalizing second with
  | nil => cases second <;> simp [List.isEqv]
  | cons message first ih =>
      cases second with
      | nil => simp [List.isEqv]
      | cons other second =>
          obtain ⟨role, content⟩ := message
          obtain ⟨otherRole, otherContent⟩ := other
          simp [List.isEqv, ih, Message.agrees]

theorem Body.agrees_iff {first second : Body} : first.agrees second = true ↔ first = second := by
  cases first <;> cases second <;> simp [agrees, messages_agree_iff]

namespace Cache

inductive Action where
  | store (name : String) (body : Body)
  | storeIfChanged (name : String) (body : Body)
  | lookup (name : String)
  | entry (name : String)
  | size
  | isEmpty
  | names

inductive Reply where
  | entry (entry : Option Entry)
  | body (body : Option Body)
  | count (count : Nat)
  | empty (empty : Bool)
  | names (names : List String)
  deriving DecidableEq, Repr

def made? (cache : Cache) : Action → Option Entry
  | .store name body => some (cache.nextEntry name body)
  | .storeIfChanged name body => (cache.storeIfChanged name body).2
  | _ => none

def act (cache : Cache) : Action → Cache × Reply
  | .store name body => (cache.store name body, .entry (cache.made? (.store name body)))
  | .storeIfChanged name body =>
      ((cache.storeIfChanged name body).1, .entry (cache.made? (.storeIfChanged name body)))
  | .lookup name => (cache, .body (cache.lookup? name))
  | .entry name => (cache, .entry (cache.entry? name))
  | .size => (cache, .count cache.size)
  | .isEmpty => (cache, .empty cache.isEmpty)
  | .names => (cache, .names cache.names)

def ofActions (actions : List Action) : Cache :=
  actions.foldl (fun cache action => (cache.act action).1) empty

def madeBy (cache : Cache) : List Action → List Entry
  | [] => []
  | action :: actions => (cache.made? action).toList ++ madeBy (cache.act action).1 actions

/-- The bodies that were stored, each with its name, the first one first. -/
abbrev Log := List (String × Body)

namespace Log

/-- The entry of each item. Its version is the place of the item, counted from 1. -/
def entries (log : Log) : List Entry :=
  (log.zipIdx 1).map fun item => ⟨item.1.1, item.1.2, item.2⟩

def latest? (log : Log) (name : String) : Option Entry :=
  log.entries.reverse.find? (·.name == name)

def lookup? (log : Log) (name : String) : Option Body := (log.latest? name).map Entry.body

def holds (log : Log) (name : String) (body : Body) : Bool := (log.lookup? name).any (·.agrees body)

def names (log : Log) : List String := log.map Prod.fst

def record (log : Log) : Action → Log
  | .store name body => log ++ [(name, body)]
  | .storeIfChanged name body => if log.holds name body then log else log ++ [(name, body)]
  | _ => log

def ofActions (actions : List Action) : Log := actions.foldl record []

/-- The reply that a log calls for. -/
def Expects (log : Log) : Action → Reply → Prop
  | .store name body, .entry made => made = some ⟨name, body, log.length + 1⟩
  | .storeIfChanged name body, .entry made =>
      made = if log.holds name body then none else some ⟨name, body, log.length + 1⟩
  | .lookup name, .body body => body = log.lookup? name
  | .entry name, .entry entry => entry = log.latest? name
  | .size, .count count => count = log.names.dedup.length
  | .isEmpty, .empty empty => empty = true ↔ log = []
  | .names, .names names => names.Pairwise (· < ·) ∧ ∀ name, name ∈ names ↔ name ∈ log.names
  | _, _ => False

private theorem ofActions_concat (actions : List Action) (action : Action) :
    ofActions (actions ++ [action]) = (ofActions actions).record action := by
  simp [ofActions]

theorem entries_concat (log : Log) (name : String) (body : Body) :
    entries (log ++ [(name, body)]) = log.entries ++ [⟨name, body, log.length + 1⟩] := by
  simp [entries, List.zipIdx_append, Nat.add_comm]

theorem latest?_concat (log : Log) (stored : String) (body : Body) (name : String) :
    latest? (log ++ [(stored, body)]) name =
      if stored = name then some ⟨stored, body, log.length + 1⟩ else log.latest? name := by
  rw [latest?, entries_concat, List.reverse_append, List.reverse_singleton, List.singleton_append,
    List.find?_cons]
  by_cases hname : stored = name
  · simp [hname]
  · simp [hname, beq_eq_false_iff_ne.mpr hname, latest?]

theorem entries_versions (log : Log) :
    log.entries.map Entry.version = List.range' 1 log.length := by
  rw [entries, List.map_map, ← List.zipIdx_map_snd 1 log]
  rfl

theorem mem_entries {log : Log} {name : String} {entry : Entry}
    (h : log.latest? name = some entry) : entry ∈ log.entries :=
  List.mem_reverse.mp (List.mem_of_find?_eq_some h)

theorem version_le {log : Log} {name : String} {entry : Entry} (h : log.latest? name = some entry) :
    entry.version ≤ log.length := by
  have hrange : entry.version ∈ List.range' 1 log.length := by
    rw [← entries_versions]
    exact List.mem_map_of_mem (mem_entries h)
  rw [List.mem_range'_1] at hrange
  omega

theorem eq_of_version_eq {log : Log} {first second : Entry} (hfirst : first ∈ log.entries)
    (hsecond : second ∈ log.entries) (h : first.version = second.version) : first = second := by
  have hnodup : (log.entries.map Entry.version).Nodup := by
    rw [entries_versions]
    exact List.nodup_range'
  exact List.inj_on_of_nodup_map hnodup hfirst hsecond h

theorem latest?_eq_none_iff {log : Log} {name : String} :
    log.latest? name = none ↔ name ∉ log.names := by
  induction log using List.reverseRecOn with
  | nil => simp [latest?, entries, names]
  | append_singleton log item ih =>
      rw [latest?_concat]
      by_cases hname : item.1 = name
      · simp [names, hname]
      · simp only [names] at ih
        simp [names, hname, ih, Ne.symm hname]

/-- Items that follow leave a name its entry, or give it one with a later version. -/
theorem latest?_append (log appended : Log) (name : String) :
    ((∀ item ∈ appended, item.1 ≠ name) ∧ latest? (log ++ appended) name = log.latest? name) ∨
      ((∃ item ∈ appended, item.1 = name) ∧
        ∃ entry, latest? (log ++ appended) name = some entry ∧ log.length < entry.version) := by
  induction appended using List.reverseRecOn with
  | nil => simp
  | append_singleton appended item ih =>
      rw [← List.append_assoc, latest?_concat]
      by_cases hname : item.1 = name
      · refine .inr ⟨⟨item, by simp, hname⟩, _, if_pos hname, ?_⟩
        simp only [List.length_append]
        omega
      · rw [if_neg hname]
        rcases ih with ⟨hnone, hentry⟩ | ⟨⟨other, hother, hsome⟩, hentry⟩
        · refine .inl ⟨?_, hentry⟩
          intro other hother
          rcases List.mem_append.mp hother with hother | hother
          · exact hnone other hother
          · exact List.mem_singleton.mp hother ▸ hname
        · exact .inr ⟨⟨other, List.mem_append_left _ hother, hsome⟩, hentry⟩

private theorem exists_append_of_latest? {log : Log} {name : String} {entry : Entry}
    (h : log.latest? name = some entry) :
    entry.name = name ∧ ∃ earlier later, log = earlier ++ (name, entry.body) :: later ∧
      entry.version = earlier.length + 1 ∧ ∀ item ∈ later, item.1 ≠ name := by
  induction log using List.reverseRecOn with
  | nil => simp [latest?, entries] at h
  | append_singleton log item ih =>
      obtain ⟨stored, body⟩ := item
      rw [latest?_concat] at h
      split at h
      case isTrue hname =>
        obtain rfl := Option.some.inj h
        exact ⟨hname, log, [], by rw [hname], rfl, by simp⟩
      case isFalse hname =>
        obtain ⟨hentry, earlier, later, rfl, hversion, hlater⟩ := ih h
        refine ⟨hentry, earlier, later ++ [(stored, body)], by simp, hversion, ?_⟩
        intro item hitem
        rcases List.mem_append.mp hitem with hitem | hitem
        · exact hlater item hitem
        · exact List.mem_singleton.mp hitem ▸ hname

theorem latest?_eq_some_iff {log : Log} {name : String} {entry : Entry} :
    log.latest? name = some entry ↔
      entry.name = name ∧ ∃ earlier later, log = earlier ++ (name, entry.body) :: later ∧
        entry.version = earlier.length + 1 ∧ ∀ item ∈ later, item.1 ≠ name := by
  refine ⟨exists_append_of_latest?, ?_⟩
  rintro ⟨hentry, earlier, later, rfl, hversion, hlater⟩
  rw [List.append_cons]
  rcases latest?_append (earlier ++ [(name, entry.body)]) later name with ⟨-, heq⟩ | ⟨hitem, -⟩
  · obtain ⟨stored, body, version⟩ := entry
    rw [heq, latest?_concat, if_pos rfl]
    subst hentry hversion
    rfl
  · obtain ⟨item, hmem, hname⟩ := hitem
    exact absurd hname (hlater item hmem)

private theorem record_append (log : Log) (action : Action) :
    ∃ appended, log.record action = log ++ appended := by
  cases action with
  | store name body => exact ⟨_, rfl⟩
  | storeIfChanged name body =>
      rw [record]
      split
      · exact ⟨[], (List.append_nil _).symm⟩
      · exact ⟨_, rfl⟩
  | _ => exact ⟨[], (List.append_nil _).symm⟩

theorem ofActions_append (actions more : List Action) :
    ∃ appended, ofActions (actions ++ more) = ofActions actions ++ appended := by
  induction more using List.reverseRecOn with
  | nil => exact ⟨[], by simp⟩
  | append_singleton more action ih =>
      obtain ⟨appended, happended⟩ := ih
      obtain ⟨last, hlast⟩ := record_append (ofActions (actions ++ more)) action
      refine ⟨appended ++ last, ?_⟩
      rw [← List.append_assoc, ofActions_concat, hlast, happended, List.append_assoc]

end Log

/-- A cache has the entries of a log and counts its items. -/
structure Shows (cache : Cache) (log : Log) : Prop where
  entries : ∀ name, cache.entry? name = log.latest? name
  counter : cache.lastVersion = log.length

variable {cache : Cache} {log : Log}

theorem Shows.lookup (h : cache.Shows log) (name : String) :
    cache.lookup? name = log.lookup? name := by
  rw [lookup?, h.entries, Log.lookup?]

theorem Shows.nextEntry (h : cache.Shows log) (name : String) (body : Body) :
    cache.nextEntry name body = ⟨name, body, log.length + 1⟩ := by
  rw [Cache.nextEntry, h.counter]

theorem Shows.holds_iff (h : cache.Shows log) {name : String} {body : Body} :
    log.holds name body = true ↔ cache.lookup? name = some body := by
  rw [Log.holds, ← h.lookup, Option.any_eq_true]
  simp [Body.agrees_iff]

theorem Shows.mem_names_iff (h : cache.Shows log) {name : String} :
    name ∈ cache.names ↔ name ∈ log.names := by
  have hkey : cache.entries.get? name = log.latest? name := h.entries name
  rw [names, Index.mem_keys_iff, hkey, Ne, Log.latest?_eq_none_iff, not_not]

theorem Shows.size (h : cache.Shows log) : cache.size = log.names.dedup.length := by
  have hperm : cache.names.Perm log.names.dedup := by
    apply (List.perm_ext_iff_of_nodup cache.entries.keys_nodup (List.nodup_dedup _)).mpr
    intro name
    rw [List.mem_dedup]
    exact h.mem_names_iff
  rw [← hperm.length_eq, names, Index.keys, List.length_map]
  rfl

theorem Shows.isEmpty_iff (h : cache.Shows log) : cache.isEmpty = true ↔ log = [] := by
  rw [isEmpty, beq_iff_eq, h.size, List.length_eq_zero_iff, List.dedup_eq_nil, Log.names,
    List.map_eq_nil_iff]

theorem Shows.store (h : cache.Shows log) (name : String) (body : Body) :
    (cache.store name body).Shows (log ++ [(name, body)]) where
  entries := fun other => by
    rw [Log.latest?_concat]
    by_cases hname : name = other
    · subst hname
      rw [if_pos rfl, entry?_store_self, h.nextEntry]
    · rw [if_neg hname, entry?_store_of_ne cache body (Ne.symm hname), h.entries]
  counter := by rw [lastVersion_store, h.counter, List.length_append, List.length_singleton]

theorem Shows.act (h : cache.Shows log) (action : Action) :
    match cache.made? action with
    | none => (cache.act action).1 = cache ∧ log.record action = log
    | some entry =>
        entry = ⟨entry.name, entry.body, log.length + 1⟩ ∧
          (cache.act action).1 = cache.store entry.name entry.body ∧
          log.record action = log ++ [(entry.name, entry.body)] := by
  cases action with
  | store name body =>
      rw [made?, h.nextEntry]
      exact ⟨rfl, rfl, rfl⟩
  | storeIfChanged name body =>
      rw [made?, Cache.act, storeIfChanged, Log.record]
      by_cases hbody : cache.lookup? name = some body
      · rw [if_pos hbody, if_pos (h.holds_iff.mpr hbody)]
        exact ⟨rfl, rfl⟩
      · rw [if_neg hbody, if_neg (mt h.holds_iff.mp hbody), h.nextEntry]
        exact ⟨rfl, rfl, rfl⟩
  | _ => exact ⟨rfl, rfl⟩

theorem Shows.step (h : cache.Shows log) (action : Action) :
    (cache.act action).1.Shows (log.record action) := by
  have hact := h.act action
  cases hmade : cache.made? action with
  | none =>
      rw [hmade] at hact
      rwa [hact.1, hact.2]
  | some entry =>
      rw [hmade] at hact
      rw [hact.2.1, hact.2.2]
      exact h.store entry.name entry.body

private theorem ofActions_concat (actions : List Action) (action : Action) :
    ofActions (actions ++ [action]) = ((ofActions actions).act action).1 := by
  simp [ofActions]

theorem ofActions_shows (actions : List Action) :
    (ofActions actions).Shows (Log.ofActions actions) := by
  induction actions using List.reverseRecOn with
  | nil => exact ⟨fun _ => rfl, rfl⟩
  | append_singleton actions action ih =>
      rw [ofActions_concat, Log.ofActions_concat]
      exact ih.step action

theorem Shows.expects (h : cache.Shows log) (action : Action) :
    log.Expects action (cache.act action).2 := by
  cases action with
  | store name body => exact congrArg some (h.nextEntry name body)
  | storeIfChanged name body =>
      change (cache.storeIfChanged name body).2 = _
      rw [storeIfChanged]
      by_cases hbody : cache.lookup? name = some body
      · rw [if_pos hbody, if_pos (h.holds_iff.mpr hbody)]
      · rw [if_neg hbody, if_neg (mt h.holds_iff.mp hbody), h.nextEntry]
  | lookup name => exact h.lookup name
  | entry name => exact h.entries name
  | size => exact h.size
  | isEmpty => exact h.isEmpty_iff
  | names => exact ⟨cache.entries.keys_ascending, fun name => h.mem_names_iff⟩

theorem Shows.madeBy (h : cache.Shows log) (actions : List Action) :
    log.entries ++ cache.madeBy actions = Log.entries (actions.foldl Log.record log) := by
  induction actions generalizing cache log with
  | nil => simp [Cache.madeBy]
  | cons action actions ih =>
      have hact := h.act action
      rw [List.foldl_cons, ← ih (h.step action), Cache.madeBy]
      cases hmade : cache.made? action with
      | none =>
          rw [hmade] at hact
          rw [hact.2]
          rfl
      | some entry =>
          rw [hmade] at hact
          rw [hact.2.2, Log.entries_concat, ← hact.1, List.append_assoc]
          rfl

structure Logged (actions : List Action) : Prop where
  replies : ∀ action, (Log.ofActions actions).Expects action ((ofActions actions).act action).2
  counter : (ofActions actions).lastVersion = (Log.ofActions actions).length
  /-- The counter and the versions fit 64 bits for as long as fewer bodies were stored. -/
  fits : (Log.ofActions actions).length < UInt64.size →
    (ofActions actions).lastVersion < UInt64.size ∧
      ∀ name entry, entry? (ofActions actions) name = some entry → entry.version < UInt64.size
  entry : ∀ name entry, entry? (ofActions actions) name = some entry ↔
    entry.name = name ∧ ∃ earlier later,
      Log.ofActions actions = earlier ++ (name, entry.body) :: later ∧
        entry.version = earlier.length + 1 ∧ ∀ item ∈ later, item.1 ≠ name
  lookup : ∀ name, (ofActions actions).lookup? name = (Log.ofActions actions).lookup? name
  /-- The entry that an action makes is appended, and is then the one under its name. -/
  made : ∀ action entry, (ofActions actions).made? action = some entry →
    Log.ofActions (actions ++ [action]) = Log.ofActions actions ++ [(entry.name, entry.body)] ∧
      entry? (ofActions (actions ++ [action])) entry.name = some entry
  /-- An action makes no entry exactly when it appends nothing, and then the cache is left as it
  was. -/
  unmade : ∀ action, ((ofActions actions).made? action = none ↔
      Log.ofActions (actions ++ [action]) = Log.ofActions actions) ∧
    ((ofActions actions).made? action = none →
      ofActions (actions ++ [action]) = ofActions actions)
  /-- The entries that were made are those of the items, so their versions count up from 1. -/
  entries : empty.madeBy actions = (Log.ofActions actions).entries ∧
    (empty.madeBy actions).map Entry.version = List.range' 1 (Log.ofActions actions).length
  unique : ∀ name other first second, entry? (ofActions actions) name = some first →
    entry? (ofActions actions) other = some second → first.version = second.version →
      first = second
  /-- An entry stays until an item for its name is appended, and then its version is passed. -/
  replaced : ∀ more, ∃ appended,
    Log.ofActions (actions ++ more) = Log.ofActions actions ++ appended ∧
      ∀ name first second, entry? (ofActions actions) name = some first →
        entry? (ofActions (actions ++ more)) name = some second →
          ((∀ item ∈ appended, item.1 ≠ name) ∧ second = first) ∨
            ((∃ item ∈ appended, item.1 = name) ∧ first.version < second.version)

/-- The cache refines the append-only log of what was stored. -/
theorem refines_log (actions : List Action) : Logged actions where
  replies := (ofActions_shows actions).expects
  counter := (ofActions_shows actions).counter
  fits := fun hlength => by
    refine ⟨(ofActions_shows actions).counter ▸ hlength, fun name entry hentry => ?_⟩
    rw [(ofActions_shows actions).entries] at hentry
    exact (Log.version_le hentry).trans_lt hlength
  entry := fun name entry => by
    rw [(ofActions_shows actions).entries]
    exact Log.latest?_eq_some_iff
  lookup := (ofActions_shows actions).lookup
  made := fun action entry hmade => by
    have hact := (ofActions_shows actions).act action
    rw [hmade] at hact
    obtain ⟨hentry, hcache, hlog⟩ := hact
    rw [Log.ofActions_concat, ofActions_concat, hcache, hlog]
    refine ⟨rfl, ?_⟩
    rw [entry?_store_self, (ofActions_shows actions).nextEntry]
    exact congrArg some hentry.symm
  unmade := fun action => by
    have hact := (ofActions_shows actions).act action
    rw [Log.ofActions_concat, ofActions_concat]
    cases hmade : (ofActions actions).made? action with
    | none =>
        rw [hmade] at hact
        exact ⟨iff_of_true rfl hact.2, fun _ => hact.1⟩
    | some entry =>
        rw [hmade] at hact
        rw [hact.2.2]
        simp
  entries := by
    have hmade : empty.madeBy actions = (Log.ofActions actions).entries :=
      (ofActions_shows []).madeBy actions
    exact ⟨hmade, hmade ▸ Log.entries_versions _⟩
  unique := fun name other first second hfirst hsecond hversion => by
    rw [(ofActions_shows actions).entries] at hfirst hsecond
    exact Log.eq_of_version_eq (Log.mem_entries hfirst) (Log.mem_entries hsecond) hversion
  replaced := fun more => by
    obtain ⟨appended, happended⟩ := Log.ofActions_append actions more
    refine ⟨appended, happended, fun name first second hfirst hsecond => ?_⟩
    rw [(ofActions_shows _).entries] at hfirst hsecond
    rw [happended] at hsecond
    -- the log tells whether the name was stored again
    rcases Log.latest?_append (Log.ofActions actions) appended name with
      ⟨hnone, hentry⟩ | ⟨hitem, entry, hentry, hlater⟩
    · rw [hentry, hfirst] at hsecond
      exact .inl ⟨hnone, (Option.some.inj hsecond).symm⟩
    · rw [hentry] at hsecond
      obtain rfl := Option.some.inj hsecond
      exact .inr ⟨hitem, (Log.version_le hfirst).trans_lt hlater⟩

end Cache

end PromptRegistry
