import PromptRegistry.Proofs.Json.Fields

/-! # Spellings of records -/

namespace PromptRegistry.Json

variable {α β : Type}

theorem toOption_eq_iff {first second : Except Fault α} :
    first.toOption = second.toOption ↔ ∀ a, first = .ok a ↔ second = .ok a := by
  cases first <;> cases second <;> simp [Except.toOption, eq_comm]

theorem toOption_eq_none_iff {result : Except Fault α} :
    result.toOption = none ↔ ∀ a, result ≠ .ok a := by
  cases result <;> simp [Except.toOption]

namespace Fields

variable {fields : Fields α} {title : String} {complete : Bool}

theorem known_perm {first second : List (Option String × Tree)} (h : first.Perm second) :
    (fields.known first).Perm (fields.known second) :=
  h.filterMap _

theorem known_append (first second : List (Option String × Tree)) :
    fields.known (first ++ second) = fields.known first ++ fields.known second :=
  List.filterMap_append

theorem member_of_mem_known {members : List (Option String × Tree)} {entry : String × Tree}
    (h : entry ∈ fields.known members) : (some entry.1, entry.2) ∈ members := by
  obtain ⟨⟨_ | name, tree⟩, hmember, hentry⟩ := List.mem_filterMap.mp h
  · cases hentry
  · by_cases hname : name ∈ fields.names
    · simp only [Option.bind_some, if_pos hname] at hentry
      obtain rfl := Option.some.inj hentry
      exact hmember
    · simp [hname] at hentry

theorem decoder_perm {first second : List (Option String × Tree)} (h : first.Perm second) :
    (fields.decoder title (.object first complete)).toOption =
      (fields.decoder title (.object second complete)).toOption := by
  have hdecoder {first second : List (Option String × Tree)} (h : first.Perm second) (a : α)
      (hfirst : fields.decoder title (.object first complete) = .ok a) :
      fields.decoder title (.object second complete) = .ok a := by
    obtain ⟨hcomplete, haccepts, hnodup, hmake⟩ := decoder_object_eq_ok_iff.mp hfirst
    have hknown : (fields.known first).Perm (fields.known second) := known_perm h
    -- no field has two members, so looking one up does not depend on the order
    have hlookup : (fun name => valueAt? name (fields.known first)) =
        fun name => valueAt? name (fields.known second) :=
      funext fun name => valueAt?_perm hknown hnodup name
    rw [hlookup] at hmake
    exact decoder_object_eq_ok_iff.mpr ⟨hcomplete,
      fun member hmember => haccepts member (h.mem_iff.mpr hmember),
      (hknown.map Prod.fst).nodup_iff.mp hnodup, hmake⟩
  exact toOption_eq_iff.mpr fun a => ⟨hdecoder h a, hdecoder h.symm a⟩

theorem decoder_unknown {name : String} {tree : Tree} (members : List (Option String × Tree))
    (hname : name ∉ fields.names) (htree : tree.isWhole = true) :
    fields.decoder title (.object ((some name, tree) :: members) complete) =
      fields.decoder title (.object members complete) := by
  have hskip : Decoder.skip tree = .ok () := skip_eq_ok_iff.mpr htree
  have hcollect : fields.collect ((some name, tree) :: members) [] = fields.collect members [] := by
    rw [collect, if_neg hname, hskip]
    rfl
  rw [decoder, decoder, hcollect]

theorem decoder_unknowns {others : List (Option String × Tree)}
    (h : ∀ member ∈ others, ∃ name, member.1 = some name ∧ name ∉ fields.names ∧
      member.2.isWhole = true) (members : List (Option String × Tree)) :
    fields.decoder title (.object (others ++ members) complete) =
      fields.decoder title (.object members complete) := by
  induction others with
  | nil => rfl
  | cons member others ih =>
      obtain ⟨⟨name, hmember, hname, hwhole⟩, hothers⟩ := List.forall_mem_cons.mp h
      obtain ⟨_, tree⟩ := member
      obtain rfl := hmember
      rw [List.cons_append, decoder_unknown _ hname hwhole, ih hothers]

theorem exists_perm_of_valueAt?_known {name : String} {tree : Tree} (hname : name ∈ fields.names)
    {members : List (Option String × Tree)}
    (h : valueAt? name (fields.known members) = some tree) :
    ∃ rest, members.Perm ((some name, tree) :: rest) ∧
      (fields.known members).Perm ((name, tree) :: fields.known rest) := by
  obtain ⟨before, after, rfl⟩ :=
    List.append_of_mem (member_of_mem_known (mem_of_valueAt?_eq_some h))
  have hperm : (before ++ (some name, tree) :: after).Perm
      ((some name, tree) :: (before ++ after)) := List.perm_middle
  refine ⟨before ++ after, hperm, ?_⟩
  rw [← known_cons_of_mem hname]
  exact known_perm hperm

/-- An object with two members under one of some names. -/
def Repeats (names : List String) (tree : Tree) : Prop :=
  ∃ name ∈ names, ∃ before first between second after complete, tree =
    .object (before ++ (some name, first) :: between ++ (some name, second) :: after) complete

theorem decoder_repeats {tree : Tree} (h : Repeats fields.names tree) (a : α) :
    fields.decoder title tree ≠ .ok a := by
  obtain ⟨name, hname, before, first, between, second, after, complete, rfl⟩ := h
  intro hok
  obtain ⟨-, -, hnodup, -⟩ := decoder_object_eq_ok_iff.mp hok
  rw [known_append, known_append, known_cons_of_mem hname, known_cons_of_mem hname, List.map_append,
    List.map_append, List.map_cons, List.map_cons] at hnodup
  have hdisjoint := (List.nodup_append.mp hnodup).2.2 name (by simp) name (by simp)
  exact hdisjoint rfl

inductive Holds (fields : Fields α) (name : String) (value : Tree) : Tree → Prop
  | object {members : List (Option String × Tree)} {complete : Bool}
      (h : (some name, value) ∈ members) : Holds fields name value (.object members complete)
  | array {items : List Tree} {complete : Bool} (h : (name, value) ∈ fields.names.zip items) :
      Holds fields name value (.array items complete)

theorem check_of_decoder {name : String} {value tree : Tree} {a : α}
    (h : fields.decoder title tree = .ok a) (hname : name ∈ fields.names)
    (hvalue : fields.Holds name value tree) : fields.check name value = .ok () := by
  cases hvalue with
  | object hmember =>
      obtain ⟨-, haccepts, -, -⟩ := decoder_object_eq_ok_iff.mp h
      obtain ⟨name', hname', hchecks⟩ := haccepts _ hmember
      obtain rfl : name = name' := Option.some.inj hname'
      rwa [if_pos hname] at hchecks
  | array hitem =>
      obtain ⟨-, -, hchecks, -⟩ := decoder_array_eq_ok_iff.mp h
      exact hchecks _ hitem

/-- What is found under a name may be replaced: a record that is made from the one is made from the
other as well. -/
structure ReadsAlike (fields : Fields α) (name : String) (first second : Option Tree) : Prop where
  check : name ∈ fields.names → (∀ tree ∈ first, fields.check name tree = .ok ()) →
    ∀ tree ∈ second, fields.check name tree = .ok ()
  make : ∀ find missing a, find name = first → fields.make find missing = .ok a →
    fields.make (Function.update find name second) missing = .ok a

namespace ReadsAlike

variable {name : String} {first second : Option Tree} {a : α} {decoder : Decoder α}

theorem pure : (Fields.pure a).ReadsAlike name first second :=
  ⟨fun h => (List.not_mem_nil h).elim, fun _ _ _ _ h => h⟩

theorem withDefault {default : α} (h : ∀ a, first.elim (.ok default) decoder = .ok a →
    second.elim (.ok default) decoder = .ok a) :
    (Fields.withDefault name default decoder).ReadsAlike name first second where
  check _ hfirst tree htree := by
    obtain rfl : second = some tree := htree
    have hread : ∃ a, first.elim (.ok default) decoder = .ok a := by
      cases first with
      | none => exact ⟨default, rfl⟩
      | some other =>
          have hother := hfirst other rfl
          cases hdecoder : decoder other with
          | error fault => simp [Fields.withDefault, checkOnly, hdecoder, Except.map] at hother
          | ok a => exact ⟨a, hdecoder⟩
    obtain ⟨a, ha⟩ := hread
    have htree : decoder tree = .ok a := h a ha
    simp [Fields.withDefault, checkOnly, htree, Except.map]
  make find missing a hfind hmake := by
    rw [make_withDefault, hfind] at hmake
    rw [make_withDefault, Function.update_self]
    exact h a hmake

theorem required {tree other : Tree} (h : ∀ a, decoder tree = .ok a → decoder other = .ok a) :
    (Fields.required name decoder).ReadsAlike name (some tree) (some other) where
  check _ hfirst tree' htree' := by
    obtain rfl : other = tree' := Option.some.inj htree'
    have hchecked := hfirst tree rfl
    cases hdecoder : decoder tree with
    | error fault => simp [Fields.required, checkOnly, hdecoder, Except.map] at hchecked
    | ok a => simp [Fields.required, checkOnly, h a hdecoder, Except.map]
  make find missing a hfind hmake := by
    obtain ⟨found, hfound, hdecoder⟩ := make_required.mp hmake
    obtain rfl : tree = found := Option.some.inj (hfind.symm.trans hfound)
    exact make_required.mpr ⟨other, Function.update_self .., h a hdecoder⟩

theorem required_of_ne {other : String} (h : other ≠ name) :
    (Fields.required other decoder).ReadsAlike name first second where
  check hname := absurd (List.mem_singleton.mp hname) (Ne.symm h)
  make find missing a _ hmake := by
    obtain ⟨found, hfound, hdecoder⟩ := make_required.mp hmake
    exact make_required.mpr ⟨found, (Function.update_of_ne h ..).trans hfound, hdecoder⟩

theorem withDefault_of_ne {other : String} {default : α} (h : other ≠ name) :
    (Fields.withDefault other default decoder).ReadsAlike name first second where
  check hname := absurd (List.mem_singleton.mp hname) (Ne.symm h)
  make find missing a _ hmake := by
    rw [make_withDefault] at hmake ⊢
    rwa [Function.update_of_ne h]

theorem and {fields : Fields (α → β)} {more : Fields α}
    (hfields : fields.ReadsAlike name first second) (hmore : more.ReadsAlike name first second) :
    (fields.and more).ReadsAlike name first second where
  check hname hfirst tree htree := by
    rw [Fields.and] at hname hfirst ⊢
    by_cases hmem : name ∈ fields.names
    · simp only [hmem, if_true] at hfirst ⊢
      exact hfields.check hmem hfirst tree htree
    · simp only [hmem, if_false] at hfirst ⊢
      exact hmore.check ((List.mem_append.mp hname).resolve_left hmem) hfirst tree htree
  make find missing b hfind hmake := by
    obtain ⟨f, a, hf, ha, rfl⟩ := make_and.mp hmake
    exact make_and.mpr ⟨f, a, hfields.make find missing f hfind hf,
      hmore.make find missing a hfind ha, rfl⟩

theorem valueAt?_replace {before after : List (String × Tree)}
    (habsent : ∀ entry ∈ before ++ after, entry.1 ≠ name) (first second : Option Tree) :
    (fun key => valueAt? key (before ++ second.toList.map (Prod.mk name) ++ after)) =
      Function.update
        (fun key => valueAt? key (before ++ first.toList.map (Prod.mk name) ++ after)) name
        second := by
  funext key
  by_cases hkey : key = name
  · subst hkey
    have hbefore : valueAt? key before = none := valueAt?_eq_none_iff.mpr
      fun entry hentry => habsent entry (List.mem_append_left _ hentry)
    have hafter : valueAt? key after = none := valueAt?_eq_none_iff.mpr
      fun entry hentry => habsent entry (List.mem_append_right _ hentry)
    rw [Function.update_self, valueAt?_append, valueAt?_append, hbefore, hafter]
    cases second <;> simp [valueAt?]
  · have hother (found : Option Tree) : valueAt? key (found.toList.map (Prod.mk name)) = none := by
      cases found <;> simp [valueAt?, hkey]
    rw [Function.update_of_ne hkey]
    simp only [valueAt?_append, hother]

variable {fields : Fields α} {title : String} {complete : Bool}

theorem known_replace (hname : name ∈ fields.names) (before after : List (Option String × Tree))
    (found : Option Tree) :
    fields.known (before ++ found.toList.map (Prod.mk (some name)) ++ after) =
      fields.known before ++ found.toList.map (Prod.mk name) ++ fields.known after := by
  have hfound : fields.known (found.toList.map (Prod.mk (some name))) =
      found.toList.map (Prod.mk name) := by
    cases found with
    | none => rfl
    | some tree => exact known_cons_of_mem hname tree []
  rw [known_append, known_append, hfound]

private theorem nodup_middle_iff {before after : List (String × Tree)} {tree : Tree} :
    ((before ++ [(name, tree)] ++ after).map Prod.fst).Nodup ↔
      (∀ entry ∈ before ++ after, entry.1 ≠ name) ∧ ((before ++ after).map Prod.fst).Nodup := by
  have hperm : (before ++ [(name, tree)] ++ after).Perm ((name, tree) :: (before ++ after)) := by
    rw [List.append_assoc]
    exact List.perm_middle
  rw [(hperm.map Prod.fst).nodup_iff, List.map_cons, List.nodup_cons, List.mem_map]
  simp only [not_exists, not_and]

theorem accepts_replace (h : fields.ReadsAlike name first second) (hname : name ∈ fields.names)
    {before after : List (Option String × Tree)}
    (haccepts : ∀ member ∈ before ++ first.toList.map (Prod.mk (some name)) ++ after,
      fields.Accepts member) :
    ∀ member ∈ before ++ second.toList.map (Prod.mk (some name)) ++ after,
      fields.Accepts member := by
  have hchecks (tree : Tree) (htree : tree ∈ first) : fields.check name tree = .ok () := by
    have hmem : (some name, tree) ∈ first.toList.map (Prod.mk (some name)) :=
      List.mem_map_of_mem (Option.mem_toList.mpr htree)
    obtain ⟨name', hname', hcheck⟩ :=
      haccepts _ (List.mem_append_left _ (List.mem_append_right _ hmem))
    obtain rfl : name = name' := Option.some.inj hname'
    rwa [if_pos hname] at hcheck
  intro member hmember
  rw [List.mem_append, List.mem_append] at hmember
  rcases hmember with (hmember | hmember) | hmember
  · exact haccepts member (List.mem_append_left _ (List.mem_append_left _ hmember))
  · obtain ⟨tree, htree, rfl⟩ := List.mem_map.mp hmember
    refine ⟨name, rfl, ?_⟩
    rw [if_pos hname]
    exact h.check hname hchecks tree (Option.mem_toList.mp htree)
  · exact haccepts member (List.mem_append_right _ hmember)

/-- A member may be replaced, left out where it stands and put in where it is absent. -/
theorem decoder_object (h : fields.ReadsAlike name first second) (hname : name ∈ fields.names)
    (before after : List (Option String × Tree))
    (habsent : first = none → ∀ member ∈ before ++ after, member.1 ≠ some name)
    (hok : fields.decoder title
      (.object (before ++ first.toList.map (Prod.mk (some name)) ++ after) complete) = .ok a) :
    fields.decoder title
      (.object (before ++ second.toList.map (Prod.mk (some name)) ++ after) complete) = .ok a := by
  obtain ⟨hcomplete, haccepts, hnodup, hmake⟩ := decoder_object_eq_ok_iff.mp hok
  rw [known_replace hname] at hnodup hmake
  -- the name stands nowhere else, so no other field sees the replacement
  have hrest : (∀ entry ∈ fields.known before ++ fields.known after, entry.1 ≠ name) ∧
      ((fields.known before ++ fields.known after).map Prod.fst).Nodup := by
    cases first with
    | none =>
        refine ⟨fun entry hentry heq => ?_, by simpa using hnodup⟩
        rw [← known_append] at hentry
        exact habsent rfl _ (member_of_mem_known hentry) (congrArg some heq)
    | some tree => exact nodup_middle_iff.mp hnodup
  rw [decoder_object_eq_ok_iff, known_replace hname, valueAt?_replace hrest.1 first second]
  refine ⟨hcomplete, h.accepts_replace hname haccepts, ?_, ?_⟩
  · cases second with
    | none => simpa using hrest.2
    | some tree => exact nodup_middle_iff.mpr hrest
  · have hfind := congrFun (valueAt?_replace hrest.1 first first) name
    rw [Function.update_self] at hfind
    exact h.make _ _ a hfind hmake

private theorem zip_middle {names : List String} (hnodup : names.Nodup) {before : List Tree}
    (hname : names[before.length]? = some name) (after : List Tree) :
    ∃ front back, (∀ entry ∈ front ++ back, entry.1 ≠ name) ∧
      ∀ item, names.zip (before ++ item :: after) = front ++ [(name, item)] ++ back := by
  induction before generalizing names with
  | nil =>
      cases names with
      | nil => cases hname
      | cons head names =>
          obtain rfl : head = name := Option.some.inj hname
          have hhead := (List.nodup_cons.mp hnodup).1
          refine ⟨[], names.zip after, fun entry hentry heq => hhead ?_, fun _ => rfl⟩
          exact heq ▸ (List.of_mem_zip hentry).1
  | cons first before ih =>
      cases names with
      | nil => cases hname
      | cons head names =>
          obtain ⟨hhead, hnames⟩ := List.nodup_cons.mp hnodup
          have hne : head ≠ name := fun heq => hhead (heq ▸ List.mem_of_getElem? hname)
          obtain ⟨front, back, hothers, hzip⟩ := ih hnames hname
          refine ⟨(head, first) :: front, back, List.forall_mem_cons.mpr ⟨hne, hothers⟩, ?_⟩
          intro item
          rw [List.cons_append, List.zip_cons_cons, hzip]
          rfl

theorem decoder_array {tree other : Tree} (h : fields.ReadsAlike name (some tree) (some other))
    (hnodup : fields.names.Nodup) (before after : List Tree)
    (hname : fields.names[before.length]? = some name)
    (hok : fields.decoder title (.array (before ++ tree :: after) complete) = .ok a) :
    fields.decoder title (.array (before ++ other :: after) complete) = .ok a := by
  obtain ⟨hcomplete, hsurplus, hchecks, hmake⟩ := decoder_array_eq_ok_iff.mp hok
  obtain ⟨front, back, hothers, hzip⟩ := zip_middle hnodup hname after
  have hreplace := valueAt?_replace hothers (some tree)
  have hlength : (before ++ other :: after).length = (before ++ tree :: after).length := by simp
  rw [hzip] at hchecks hmake
  rw [decoder_array_eq_ok_iff, hlength, hzip]
  refine ⟨hcomplete, hsurplus, fun item hitem => ?_, ?_⟩
  · rw [List.mem_append, List.mem_append] at hitem
    rcases hitem with (hitem | hitem) | hitem
    · exact hchecks item (List.mem_append_left _ (List.mem_append_left _ hitem))
    · obtain rfl := List.mem_singleton.mp hitem
      refine h.check (List.mem_of_getElem? hname) (fun found hfound => ?_) other rfl
      obtain rfl : tree = found := Option.some.inj hfound
      exact hchecks (name, tree) (by simp)
    · exact hchecks item (List.mem_append_right _ hitem)
  · have hfind := congrFun (hreplace (some tree)) name
    rw [Function.update_self] at hfind
    have hother : (fun key => valueAt? key (front ++ [(name, other)] ++ back)) = _ :=
      hreplace (some other)
    rw [hother]
    exact h.make _ _ a hfind hmake

end ReadsAlike

section

variable {γ : Type} {mk : α → β → γ} {first second : String} {left : Decoder α}
  {right : Decoder β} {value other : Tree} {c : γ}

def pair (mk : α → β → γ) (first : String) (left : Decoder α) (second : String)
    (right : Decoder β) : Fields γ :=
  (Fields.pure mk).and (.required first left) |>.and (.required second right)

/-- A tree that holds a value for each of two fields: an object has one member for each among
members of other names, and an array has both. -/
inductive HoldsPair (first second : String) (value other : Tree) : Tree → Prop
  | object {members others : List (Option String × Tree)}
      (hmembers : members.Perm ((some first, value) :: (some second, other) :: others))
      (hothers : ∀ member ∈ others, ∃ name, member.1 = some name ∧ name ∉ [first, second] ∧
        member.2.isWhole = true) : HoldsPair first second value other (.object members true)
  | array : HoldsPair first second value other (.array [value, other] true)

theorem names_pair : (pair mk first left second right).names = [first, second] := rfl

theorem make_pair {find : String → Option Tree} {missing : String → Fault} :
    (pair mk first left second right).make find missing = .ok c ↔
      ∃ value other a b, find first = some value ∧ find second = some other ∧
        left value = .ok a ∧ right other = .ok b ∧ mk a b = c := by
  rw [pair, make_and]
  simp only [make_and, make_required]
  constructor
  · intro h
    obtain ⟨_, b, ⟨_, a, hmk, ⟨value, hvalue, ha⟩, rfl⟩, ⟨other, hother, hb⟩, rfl⟩ := h
    obtain rfl := Except.ok.inj hmk
    exact ⟨value, other, a, b, hvalue, hother, ha, hb, rfl⟩
  · intro h
    obtain ⟨value, other, a, b, hvalue, hother, ha, hb, rfl⟩ := h
    exact ⟨_, b, ⟨mk, a, rfl, ⟨value, hvalue, ha⟩, rfl⟩, ⟨other, hother, hb⟩, rfl⟩

theorem holdsPair_of_accepts {members : List (Option String × Tree)} (hne : first ≠ second)
    (haccepts : ∀ member ∈ members, (pair mk first left second right).Accepts member)
    (hnodup : (((pair mk first left second right).known members).map Prod.fst).Nodup)
    (hvalue : valueAt? first ((pair mk first left second right).known members) = some value)
    (hother : valueAt? second ((pair mk first left second right).known members) = some other) :
    HoldsPair first second value other (.object members true) := by
  obtain ⟨rest, hrest, hknown⟩ := exists_perm_of_valueAt?_known (by simp [names_pair]) hvalue
  rw [valueAt?_perm hknown hnodup, valueAt?, if_neg hne.symm] at hother
  obtain ⟨others, hothers, hknown'⟩ := exists_perm_of_valueAt?_known (by simp [names_pair]) hother
  have hmembers := hrest.trans (hothers.cons _)
  have hkeys := ((hknown.trans (hknown'.cons _)).map Prod.fst).nodup_iff.mp hnodup
  simp only [List.map_cons, List.nodup_cons, List.mem_cons, not_or] at hkeys
  refine .object hmembers fun member hmember => ?_
  obtain ⟨name, hname, haccept⟩ := haccepts member (hmembers.mem_iff.mpr (by simp [hmember]))
  -- a further member of a field would repeat its name
  have hunknown : name ∉ [first, second] := by
    intro hfield
    have hfound : (name, member.2) ∈ (pair mk first left second right).known others :=
      List.mem_filterMap.mpr ⟨member, hmember, by
        rw [hname, Option.bind_some, names_pair, if_pos hfield]⟩
    have hkey := List.mem_map_of_mem (f := Prod.fst) hfound
    obtain rfl | rfl : name = first ∨ name = second := by simpa using hfield
    · exact hkeys.1.2 hkey
    · exact hkeys.2.1 hkey
  rw [names_pair, if_neg hunknown] at haccept
  exact ⟨name, hname, hunknown, haccept⟩

theorem holdsPair_of_items {items : List Tree} (hne : first ≠ second) (hlength : items.length ≤ 2)
    (hvalue : valueAt? first ([first, second].zip items) = some value)
    (hother : valueAt? second ([first, second].zip items) = some other) :
    HoldsPair first second value other (.array items true) := by
  match items with
  | [] => cases hvalue
  | [_] => simp [valueAt?, hne.symm] at hother
  | [item, next] =>
      obtain rfl : item = value := by simpa [valueAt?] using hvalue
      obtain rfl : next = other := by simpa [valueAt?, hne.symm] using hother
      exact .array
  | _ :: _ :: _ :: _ => simp at hlength

theorem check_pair (mk : α → β → γ) {a : α} {b : β} (hne : first ≠ second)
    (ha : left value = .ok a) (hb : right other = .ok b) :
    (pair mk first left second right).check first value = .ok () ∧
      (pair mk first left second right).check second other = .ok () := by
  simp [pair, Fields.and, Fields.pure, required, checkOnly, hne.symm, ha, hb, Except.map]

theorem decoder_of_holdsPair {tree : Tree} {a : α} {b : β} (hne : first ≠ second)
    (hholds : HoldsPair first second value other tree) (ha : left value = .ok a)
    (hb : right other = .ok b) :
    (pair mk first left second right).decoder title tree = .ok (mk a b) := by
  obtain ⟨hfirst, hsecond⟩ := check_pair mk hne ha hb
  cases hholds with
  | @object members others hmembers hothers =>
      have hordered : members.Perm (others ++ [(some first, value), (some second, other)]) :=
        hmembers.trans (@List.perm_append_comm _ [_, _] others)
      rw [toOption_eq_iff.mp (decoder_perm hordered), decoder_unknowns hothers,
        decoder_object_eq_ok_iff]
      refine ⟨rfl, ?_, ?_, make_pair.mpr ⟨value, other, a, b, ?_, ?_, ha, hb, rfl⟩⟩
      · intro member hmember
        simp only [List.mem_cons, List.not_mem_nil, or_false] at hmember
        obtain rfl | rfl := hmember
        · exact ⟨first, rfl, by simpa [names_pair] using hfirst⟩
        · exact ⟨second, rfl, by simpa [names_pair] using hsecond⟩
      all_goals simp [known, names_pair, valueAt?, hne, hne.symm]
  | array =>
      rw [decoder_array_eq_ok_iff]
      refine ⟨rfl, le_rfl, ?_, make_pair.mpr ⟨value, other, a, b, ?_, ?_, ha, hb, rfl⟩⟩
      · intro item hitem
        have hitem' : item = (first, value) ∨ item = (second, other) := by
          simpa [names_pair] using hitem
        obtain rfl | rfl := hitem'
        · exact hfirst
        · exact hsecond
      all_goals simp [names_pair, valueAt?, hne.symm]

theorem decoder_pair_eq_ok_iff {tree : Tree} (hne : first ≠ second) :
    (pair mk first left second right).decoder title tree = .ok c ↔
      ∃ value other a b, HoldsPair first second value other tree ∧
        left value = .ok a ∧ right other = .ok b ∧ mk a b = c := by
  constructor
  · intro h
    cases tree with
    | object members complete =>
        obtain ⟨rfl, haccepts, hnodup, hmake⟩ := decoder_object_eq_ok_iff.mp h
        obtain ⟨value, other, a, b, hvalue, hother, hread⟩ := make_pair.mp hmake
        exact ⟨value, other, a, b, holdsPair_of_accepts hne haccepts hnodup hvalue hother, hread⟩
    | array items complete =>
        obtain ⟨rfl, hlength, -, hmake⟩ := decoder_array_eq_ok_iff.mp h
        obtain ⟨value, other, a, b, hvalue, hother, hread⟩ := make_pair.mp hmake
        exact ⟨value, other, a, b, holdsPair_of_items hne hlength hvalue hother, hread⟩
    | _ => cases h
  · intro h
    obtain ⟨value, other, a, b, hholds, ha, hb, rfl⟩ := h
    exact decoder_of_holdsPair hne hholds ha hb

end

end Fields

end PromptRegistry.Json
