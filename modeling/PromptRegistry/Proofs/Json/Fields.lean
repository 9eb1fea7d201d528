import PromptRegistry.Json.Decoder
import PromptRegistry.Proofs.Json.Canonical

/-! # When a record is read -/

namespace PromptRegistry.Json

variable {α β : Type}

theorem Decoder.run_eq_ok_iff {decoder : Decoder α} {text : String} {a : α} :
    decoder.run text = .ok a ↔
      decoder (Tree.ofText text.toList).1 = .ok a ∧ (Tree.ofText text.toList).2 = true := by
  obtain ⟨⟨tree, ended⟩, htree⟩ : ∃ result, Tree.ofText text.toList = result := ⟨_, rfl⟩
  rw [Decoder.run, htree]
  dsimp only
  split
  case h_1 value hvalue => cases ended <;> simp [hvalue]
  case h_2 hfault => simp [hfault]
  case h_3 hfault => simp [hfault]

namespace Fields

def known (fields : Fields α) (members : List (Option String × Tree)) : List (String × Tree) :=
  members.filterMap fun member =>
    member.1.bind fun name => if name ∈ fields.names then some (name, member.2) else none

/-- A member has a name, and its value passes the check of its field or may be skipped. -/
def Accepts (fields : Fields α) (member : Option String × Tree) : Prop :=
  ∃ name, member.1 = some name ∧
    if name ∈ fields.names then fields.check name member.2 = .ok () else member.2.isWhole = true

theorem known_cons_of_mem {fields : Fields α} {name : String} (h : name ∈ fields.names)
    (tree : Tree) (members : List (Option String × Tree)) :
    fields.known ((some name, tree) :: members) = (name, tree) :: fields.known members := by
  simp [known, h]

theorem known_cons_of_not_mem {fields : Fields α} {name : String} (h : name ∉ fields.names)
    (tree : Tree) (members : List (Option String × Tree)) :
    fields.known ((some name, tree) :: members) = fields.known members := by
  simp [known, h]

theorem skip_eq_ok_iff {tree : Tree} : Decoder.skip tree = .ok () ↔ tree.isWhole = true := by
  unfold Decoder.skip
  split <;> simp_all

private theorem check_cases {checked : Except Fault Unit} {next : Except Fault β} {result : β} :
    (checked >>= fun _ => next) = .ok result ↔ checked = .ok () ∧ next = .ok result := by
  cases checked <;> simp [bind, Except.bind]

/-- The members found come last first, in front of those found before. -/
theorem collect_eq_ok_iff {fields : Fields α} {members : List (Option String × Tree)}
    {found result : List (String × Tree)} (hfound : (found.map Prod.fst).Nodup) :
    fields.collect members found = .ok result ↔
      (∀ member ∈ members, fields.Accepts member) ∧
        (((fields.known members).reverse ++ found).map Prod.fst).Nodup ∧
        result = (fields.known members).reverse ++ found := by
  induction members generalizing found with
  | nil => simp [collect, known, hfound, eq_comm]
  | cons member members ih =>
      obtain ⟨_ | name, tree⟩ := member
      · simp [collect, Accepts]
      · by_cases hname : name ∈ fields.names
        · have hsplit : (fields.known ((some name, tree) :: members)).reverse ++ found =
              (fields.known members).reverse ++ (name, tree) :: found := by
            simp [known_cons_of_mem hname]
          rw [collect, if_pos hname, hsplit, List.forall_mem_cons]
          by_cases htwice : found.any (·.1 == name) = true
          · have hmem : name ∈ found.map Prod.fst := by simpa using htwice
            rw [if_pos htwice]
            constructor
            · intro h
              cases h
            · rintro ⟨-, hnodup, -⟩
              rw [List.map_append, List.map_cons] at hnodup
              exact absurd hmem (List.nodup_cons.mp (List.nodup_append.mp hnodup).2.1).1
          · have hmem : name ∉ found.map Prod.fst := by simpa using htwice
            have hnext : (((name, tree) :: found).map Prod.fst).Nodup :=
              List.nodup_cons.mpr ⟨hmem, hfound⟩
            rw [if_neg htwice, check_cases, ih hnext]
            simp [Accepts, hname, and_assoc]
        · rw [collect, if_neg hname, check_cases, ih hfound, skip_eq_ok_iff,
            known_cons_of_not_mem hname, List.forall_mem_cons]
          simp [Accepts, hname, and_assoc]

/-- When an object is read as a record, and what the record is made from. -/
theorem decoder_object_eq_ok_iff {fields : Fields α} {title : String}
    {members : List (Option String × Tree)} {complete : Bool} {a : α} :
    fields.decoder title (.object members complete) = .ok a ↔
      complete = true ∧ (∀ member ∈ members, fields.Accepts member) ∧
        ((fields.known members).map Prod.fst).Nodup ∧
        fields.make (fun name => valueAt? name (fields.known members)) .missingField = .ok a := by
  have hcollect (found : List (String × Tree)) : fields.collect members [] = .ok found ↔
      (∀ member ∈ members, fields.Accepts member) ∧
        ((fields.known members).reverse.map Prod.fst).Nodup ∧
        found = (fields.known members).reverse := by
    have hnone : (([] : List (String × Tree)).map Prod.fst).Nodup := List.nodup_nil
    rw [collect_eq_ok_iff hnone, List.append_nil]
  have hlookup (hnodup : ((fields.known members).map Prod.fst).Nodup) :
      (fun name => valueAt? name (fields.known members).reverse) =
        fun name => valueAt? name (fields.known members) := by
    funext name
    exact (valueAt?_perm (List.reverse_perm _).symm hnodup name).symm
  have hreverse : ((fields.known members).reverse.map Prod.fst).Nodup ↔
      ((fields.known members).map Prod.fst).Nodup := by
    rw [List.map_reverse, List.nodup_reverse]
  cases hfound : fields.collect members [] with
  | error fault =>
      simp only [decoder, hfound, bind, Except.bind, reduceCtorEq, false_iff]
      rintro ⟨-, haccepts, hnodup, -⟩
      rw [(hcollect _).mpr ⟨haccepts, hreverse.mpr hnodup, rfl⟩] at hfound
      cases hfound
  | ok found =>
      obtain ⟨haccepts, hnodup, rfl⟩ := (hcollect found).mp hfound
      rw [hreverse] at hnodup
      simp only [decoder, hfound, bind, Except.bind, hlookup hnodup]
      cases complete
      · simp [throw, throwThe, MonadExceptOf.throw]
      · exact ⟨fun h => ⟨rfl, haccepts, hnodup, h⟩, fun h => h.2.2.2⟩

theorem checkItems_eq_ok_iff {fields : Fields α} {items : List (String × Tree)} :
    fields.checkItems items = .ok () ↔ ∀ item ∈ items, fields.check item.1 item.2 = .ok () := by
  induction items with
  | nil => simp [checkItems]
  | cons item items ih => rw [checkItems, check_cases, ih, List.forall_mem_cons]

theorem decoder_array_eq_ok_iff {fields : Fields α} {title : String} {items : List Tree}
    {complete : Bool} {a : α} :
    fields.decoder title (.array items complete) = .ok a ↔
      complete = true ∧ items.length ≤ fields.names.length ∧
        (∀ item ∈ fields.names.zip items, fields.check item.1 item.2 = .ok ()) ∧
        fields.make (fun name => valueAt? name (fields.names.zip items))
          (fun name => .tooShort (fields.names.idxOf name) title fields.names.length) = .ok a := by
  cases hitems : fields.checkItems (fields.names.zip items) with
  | error fault =>
      simp only [decoder, hitems, bind, Except.bind, reduceCtorEq, false_iff]
      rintro ⟨-, -, hchecks, -⟩
      rw [checkItems_eq_ok_iff.mpr hchecks] at hitems
      cases hitems
  | ok found =>
      have hchecks := checkItems_eq_ok_iff.mp hitems
      simp only [decoder, hitems, bind, Except.bind]
      cases complete
      · simp [throw, throwThe, MonadExceptOf.throw]
      · by_cases hlength : fields.names.length < items.length
        · simp [hlength, Nat.not_le.mpr hlength, throw, throwThe, MonadExceptOf.throw]
        · rw [if_neg hlength]
          exact ⟨fun h => ⟨rfl, Nat.not_lt.mp hlength, hchecks, h⟩, fun h => h.2.2.2⟩

/-- What is found for a field in the tree that is read as a record. -/
def found? (fields : Fields α) (name : String) : Tree → Option Tree
  | .object members _ => valueAt? name (fields.known members)
  | .array items _ => valueAt? name (fields.names.zip items)
  | _ => none

theorem make_of_decoder {fields : Fields α} {title : String} {tree : Tree} {a : α}
    (h : fields.decoder title tree = .ok a) :
    ∃ missing, fields.make (fun name => fields.found? name tree) missing = .ok a := by
  cases tree with
  | object members complete => exact ⟨_, (decoder_object_eq_ok_iff.mp h).2.2.2⟩
  | array items complete => exact ⟨_, (decoder_array_eq_ok_iff.mp h).2.2.2⟩
  | _ => cases h

theorem make_required {name : String} {decoder : Decoder α} {find : String → Option Tree}
    {missing : String → Fault} {a : α} :
    (required name decoder).make find missing = .ok a ↔
      ∃ tree, find name = some tree ∧ decoder tree = .ok a := by
  cases h : find name <;> simp [required, h]

theorem make_withDefault {name : String} {default : α} {decoder : Decoder α}
    {find : String → Option Tree} {missing : String → Fault} :
    (withDefault name default decoder).make find missing =
      (find name).elim (.ok default) decoder := by
  cases h : find name <;> simp [withDefault, h]

theorem make_and {first : Fields (α → β)} {second : Fields α} {find : String → Option Tree}
    {missing : String → Fault} {b : β} :
    (first.and second).make find missing = .ok b ↔
      ∃ f a, first.make find missing = .ok f ∧ second.make find missing = .ok a ∧ f a = b := by
  cases hf : first.make find missing with
  | error fault => simp [Fields.and, hf, bind, Except.bind]
  | ok f =>
      cases ha : second.make find missing <;>
        simp [Fields.and, hf, ha, bind, Except.bind, Pure.pure, Except.pure]

/-- The members of a written object pass their checks and make up a record. -/
structure Reads (fields : Fields α) (members : List (String × Json)) (a : α) : Prop where
  check : ∀ member ∈ members, member.1 ∈ fields.names →
    fields.check member.1 (.ofValue member.2) = .ok ()
  make : ∀ find missing,
    (∀ name ∈ fields.names, find name = (valueAt? name members).map Tree.ofValue) →
      fields.make find missing = .ok a

variable {members : List (String × Json)} {name : String} {value : Json} {decoder : Decoder α}
  {a : α}

theorem Reads.pure : (Fields.pure a).Reads members a :=
  ⟨fun _ _ h => (List.not_mem_nil h).elim, fun _ _ _ => rfl⟩

theorem Reads.required (hnodup : (members.map Prod.fst).Nodup)
    (hmember : valueAt? name members = some value) (hdecoder : decoder (.ofValue value) = .ok a) :
    (Fields.required name decoder).Reads members a where
  check := by
    rintro ⟨other, otherValue⟩ hvalue hother
    obtain rfl : other = name := List.mem_singleton.mp hother
    obtain rfl : otherValue = value :=
      Option.some.inj ((valueAt?_eq_some_of_mem hnodup hvalue).symm.trans hmember)
    simp [Fields.required, checkOnly, hdecoder, Except.map]
  make find missing hfind := by
    have hname := hfind name (List.mem_singleton.mpr rfl)
    rw [hmember] at hname
    exact make_required.mpr ⟨.ofValue value, hname, hdecoder⟩

theorem Reads.withDefault {default : α} (hnodup : (members.map Prod.fst).Nodup)
    (hmember : (valueAt? name members).elim (.ok default) (fun v => decoder (.ofValue v)) = .ok a) :
    (Fields.withDefault name default decoder).Reads members a where
  check := by
    rintro ⟨other, value⟩ hvalue hother
    obtain rfl : other = name := List.mem_singleton.mp hother
    rw [valueAt?_eq_some_of_mem hnodup hvalue, Option.elim_some] at hmember
    simp [Fields.withDefault, checkOnly, hmember, Except.map]
  make find missing hfind := by
    rw [make_withDefault, hfind name (List.mem_singleton.mpr rfl), Option.elim_map]
    exact hmember

theorem Reads.and {first : Fields (α → β)} {second : Fields α} {f : α → β}
    (hfirst : first.Reads members f) (hsecond : second.Reads members a) :
    (first.and second).Reads members (f a) where
  check member hmember hname := by
    rw [Fields.and]
    by_cases hmem : member.1 ∈ first.names
    · simp [hmem, hfirst.check member hmember hmem]
    · have hmem' : member.1 ∈ second.names := (List.mem_append.mp hname).resolve_left hmem
      simp [hmem, hsecond.check member hmember hmem']
  make find missing hfind := by
    have hf := hfirst.make find missing fun name hname => hfind name (List.mem_append_left _ hname)
    have ha := hsecond.make find missing fun name hname =>
      hfind name (List.mem_append_right _ hname)
    exact make_and.mpr ⟨f, a, hf, ha, rfl⟩

theorem known_ofMembers (fields : Fields α) (members : List (String × Json)) :
    fields.known (Tree.ofMembers members) =
      (members.filter fun member => member.1 ∈ fields.names).map fun member =>
        (member.1, Tree.ofValue member.2) := by
  rw [Tree.ofMembers_eq_map, known, List.filterMap_map, ← List.filterMap_eq_filter,
    List.map_filterMap]
  apply List.filterMap_congr
  intro member hmember
  by_cases hname : member.1 ∈ fields.names <;> simp [hname, Option.guard]

theorem valueAt?_known_ofMembers {fields : Fields α} {name : String} (hname : name ∈ fields.names)
    (members : List (String × Json)) :
    valueAt? name (fields.known (Tree.ofMembers members)) =
      (valueAt? name members).map Tree.ofValue := by
  rw [known_ofMembers, valueAt?_map, valueAt?_filter members hname]

/-- A written object is read as a record that its members make up. Other members do not matter. -/
theorem Reads.decoder_eq_ok {fields : Fields α} (h : fields.Reads members a) (title : String)
    (hnodup : (members.map Prod.fst).Nodup) :
    fields.decoder title (.ofValue (.object members)) = .ok a := by
  rw [Tree.ofValue, decoder_object_eq_ok_iff]
  refine ⟨rfl, ?_, ?_, ?_⟩
  · intro member hmember
    rw [Tree.ofMembers_eq_map] at hmember
    obtain ⟨named, hnamed, rfl⟩ := List.mem_map.mp hmember
    refine ⟨named.1, rfl, ?_⟩
    split
    case isTrue hname => exact h.check named hnamed hname
    case isFalse => exact Tree.ofValue_isWhole named.2
  · rw [known_ofMembers, List.map_map]
    exact hnodup.sublist (List.filter_sublist.map Prod.fst)
  · apply h.make
    intro name hname
    exact valueAt?_known_ofMembers hname members

theorem Reads.decoder_array_eq_ok {fields : Fields α} {items : List Json}
    (h : fields.Reads (fields.names.zip items) a) (title : String)
    (hlength : items.length ≤ fields.names.length) :
    fields.decoder title (.ofValue (.array items)) = .ok a := by
  have hzip : fields.names.zip (items.map Tree.ofValue) =
      (fields.names.zip items).map fun member => (member.1, Tree.ofValue member.2) :=
    List.zip_map_right
  rw [Tree.ofValue, Tree.ofItems_eq_map, decoder_array_eq_ok_iff, List.length_map, hzip]
  refine ⟨rfl, hlength, ?_, ?_⟩
  · intro item hitem
    obtain ⟨member, hmember, rfl⟩ := List.mem_map.mp hitem
    exact h.check member hmember (List.of_mem_zip hmember).1
  · apply h.make
    intro name hname
    exact valueAt?_map Tree.ofValue name _

end Fields

end PromptRegistry.Json
