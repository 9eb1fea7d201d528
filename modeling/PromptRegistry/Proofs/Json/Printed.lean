import PromptRegistry.Json.Tree
import PromptRegistry.Proofs.Json.Token

/-!
# Reading printed text back

The text of a value is cut into the same tokens under every layout.
-/

namespace PromptRegistry.Json

theorem scanAfter_append (piece rest : List Char) :
    Token.scanAfter piece.length (piece ++ rest) = Token.scan rest := by
  induction piece with
  | nil => rfl
  | cons c piece ih => exact ih

theorem scan_blank {c : Char} (cs : List Char) (h : isBlank c = true) :
    Token.scan (c :: cs) = Token.scan cs := by
  simp [Token.scan, Token.scanAfter, h]

theorem scan_blanks {blanks : List Char} (rest : List Char) (h : ∀ c ∈ blanks, isBlank c = true) :
    Token.scan (blanks ++ rest) = Token.scan rest := by
  induction blanks with
  | nil => rfl
  | cons c blanks ih =>
      rw [List.cons_append, scan_blank _ (h c List.mem_cons_self)]
      exact ih fun c hc => h c (List.mem_cons_of_mem _ hc)

theorem scan_token {c : Char} {rest : List Char} {token : Token} (cs : List Char)
    (hblank : isBlank c = false)
    (h : Token.read? (c :: cs ++ rest) = some (token, (c :: cs).length)) :
    Token.scan (c :: cs ++ rest) = token :: Token.scan rest := by
  rw [Token.scan, List.cons_append, Token.scanAfter, ← List.cons_append, h, hblank]
  simp [scanAfter_append]

theorem scan_quote (text : String) (rest : List Char) :
    Token.scan (quote text ++ rest) = .string (some text) :: Token.scan rest :=
  scan_token _ (by decide) (Token.read?_quote text rest)

theorem scan_integerText {value : Int} {rest : List Char} (hvalue : IsWord value)
    (h : EndsNumber rest) :
    Token.scan (integerText value ++ rest) =
      .number (some (.integer value)) :: Token.scan rest := by
  have hread := Token.read?_integerText hvalue h
  cases value with
  | ofNat n =>
      obtain ⟨d, cs, hd, htext⟩ := decimalText_eq_cons n
      rw [integerText, htext] at hread ⊢
      exact scan_token _ (by interval_cases d <;> rfl) hread
  | negSucc n => exact scan_token _ (by decide) hread

/-- A layout puts nothing but blanks between tokens. -/
structure Layout.IsBlank (layout : Layout) : Prop where
  line : ∀ depth, ∀ c ∈ layout.line depth, isBlank c = true
  afterColon : ∀ c ∈ layout.afterColon, isBlank c = true

theorem Layout.compact_isBlank : Layout.compact.IsBlank := ⟨by simp [compact], by simp [compact]⟩

theorem Layout.pretty_isBlank : Layout.pretty.IsBlank where
  line depth c hc := by
    rcases List.mem_cons.mp hc with rfl | hc
    · rfl
    · rw [List.eq_of_mem_replicate hc]
      rfl
  afterColon c hc := by
    rw [List.mem_singleton.mp hc]
    rfl

theorem EndsNumber.cons {c : Char} (rest : List Char)
    (h : digit? c = none ∧ c ≠ '.' ∧ c ≠ 'e' ∧ c ≠ 'E') : EndsNumber (c :: rest) := by
  rintro d hd
  rwa [← Option.some.inj hd]

theorem EndsNumber.blanks {blanks rest : List Char} (hblanks : ∀ c ∈ blanks, isBlank c = true)
    (h : EndsNumber rest) : EndsNumber (blanks ++ rest) := by
  cases blanks with
  | nil => exact h
  | cons c blanks =>
      have hc := hblanks c List.mem_cons_self
      simp only [isBlank, Bool.or_eq_true, beq_iff_eq] at hc
      apply EndsNumber.cons
      rcases hc with ((rfl | rfl) | rfl) | rfl <;> decide

mutual

/-- The tokens that a value is written with. -/
def tokens : Json → List Token
  | .null => [.null]
  | .bool value => [.bool value]
  | .number value => [.number (some value)]
  | .string value => [.string (some value)]
  | .array [] => [.openArray, .closeArray]
  | .array (item :: items) => .openArray :: item.tokens ++ itemTokens items ++ [.closeArray]
  | .object [] => [.openObject, .closeObject]
  | .object ((name, value) :: members) =>
      .openObject :: .string (some name) :: .colon :: value.tokens ++ memberTokens members ++
        [.closeObject]

def itemTokens : List Json → List Token
  | [] => []
  | item :: items => .comma :: item.tokens ++ itemTokens items

def memberTokens : List (String × Json) → List Token
  | [] => []
  | (name, value) :: members =>
      .comma :: .string (some name) :: .colon :: value.tokens ++ memberTokens members

end

mutual

/-- All numbers in a value are integers of 64 bits. -/
def isExact : Json → Bool
  | .number (.integer value) => decide (IsWord value)
  | .number (.real _) => false
  | .array items => itemsExact items
  | .object members => membersExact members
  | _ => true

def itemsExact : List Json → Bool
  | [] => true
  | item :: items => item.isExact && itemsExact items

def membersExact : List (String × Json) → Bool
  | [] => true
  | member :: members => member.2.isExact && membersExact members

end

theorem itemsExact_iff {items : List Json} :
    itemsExact items = true ↔ ∀ item ∈ items, item.isExact = true := by
  induction items with
  | nil => simp [itemsExact]
  | cons item items ih => simp [itemsExact, ih]

theorem membersExact_iff {members : List (String × Json)} :
    membersExact members = true ↔ ∀ member ∈ members, member.2.isExact = true := by
  induction members with
  | nil => simp [membersExact]
  | cons member members ih => rw [membersExact, Bool.and_eq_true, ih, List.forall_mem_cons]

variable {layout : Layout}

theorem EndsNumber.items {rest : List Char} (h : EndsNumber rest) (depth : Nat)
    (items : List Json) : EndsNumber (printItems layout depth items ++ rest) := by
  cases items with
  | nil => exact h
  | cons item items =>
      simp only [printItems, List.cons_append]
      exact .cons _ (by decide)

theorem EndsNumber.members {rest : List Char} (h : EndsNumber rest) (depth : Nat)
    (members : List (String × Json)) : EndsNumber (printMembers layout depth members ++ rest) := by
  cases members with
  | nil => exact h
  | cons member members =>
      simp only [printMembers, List.cons_append]
      exact .cons _ (by decide)

private theorem scan_mark {c : Char} {token : Token} (rest : List Char)
    (hblank : isBlank c = false) (h : Token.read? (c :: rest) = some (token, 1)) :
    Token.scan (c :: rest) = token :: Token.scan rest :=
  scan_token [] hblank h

mutual

/-- The text of a value is cut into the tokens of the value, before any text that does not go on
with a number. -/
theorem scan_print (hlayout : layout.IsBlank) (depth : Nat) (rest : List Char)
    (hrest : EndsNumber rest) : ∀ value : Json, value.isExact = true →
      Token.scan (value.print layout depth ++ rest) = value.tokens ++ Token.scan rest
  | .null, _ => scan_token ['u', 'l', 'l'] (by decide) rfl
  | .bool true, _ => scan_token ['r', 'u', 'e'] (by decide) rfl
  | .bool false, _ => scan_token ['a', 'l', 's', 'e'] (by decide) rfl
  | .number (.integer value), h => by
      rw [isExact, decide_eq_true_eq] at h
      rw [print, Number.text, scan_integerText h hrest]
      rfl
  | .number (.real value), h => by
      rw [isExact] at h
      cases h
  | .string value, _ => by
      rw [print, scan_quote]
      rfl
  | .array [], _ => by
      rw [print, List.cons_append, scan_mark _ (by decide) rfl, List.singleton_append,
        scan_mark _ (by decide) rfl]
      rfl
  | .array (item :: items), h => by
      rw [isExact, itemsExact, Bool.and_eq_true] at h
      have hend : EndsNumber (layout.line depth ++ ']' :: rest) :=
        .blanks (hlayout.line depth) (.cons rest (by decide))
      simp only [print, tokens, List.append_assoc, List.cons_append, List.nil_append]
      rw [scan_mark _ (by decide) rfl, scan_blanks _ (hlayout.line _),
        scan_print hlayout _ _ (hend.items _ items) item h.1,
        scan_printItems hlayout _ _ hend items h.2, scan_blanks _ (hlayout.line _),
        scan_mark _ (by decide) rfl]
  | .object [], _ => by
      rw [print, List.cons_append, scan_mark _ (by decide) rfl, List.singleton_append,
        scan_mark _ (by decide) rfl]
      rfl
  | .object ((name, value) :: members), h => by
      rw [isExact, membersExact, Bool.and_eq_true] at h
      have hend : EndsNumber (layout.line depth ++ '}' :: rest) :=
        .blanks (hlayout.line depth) (.cons rest (by decide))
      simp only [print, tokens, List.append_assoc, List.cons_append, List.nil_append]
      rw [scan_mark _ (by decide) rfl, scan_blanks _ (hlayout.line _), scan_quote,
        scan_mark _ (by decide) rfl, scan_blanks _ hlayout.afterColon,
        scan_print hlayout _ _ (hend.members _ members) value h.1,
        scan_printMembers hlayout _ _ hend members h.2, scan_blanks _ (hlayout.line _),
        scan_mark _ (by decide) rfl]

theorem scan_printItems (hlayout : layout.IsBlank) (depth : Nat) (rest : List Char)
    (hrest : EndsNumber rest) : ∀ items : List Json, itemsExact items = true →
      Token.scan (printItems layout depth items ++ rest) = itemTokens items ++ Token.scan rest
  | [], _ => rfl
  | item :: items, h => by
      rw [itemsExact, Bool.and_eq_true] at h
      simp only [printItems, itemTokens, List.append_assoc, List.cons_append]
      rw [scan_mark _ (by decide) rfl, scan_blanks _ (hlayout.line _),
        scan_print hlayout _ _ (hrest.items _ items) item h.1,
        scan_printItems hlayout _ _ hrest items h.2]

theorem scan_printMembers (hlayout : layout.IsBlank) (depth : Nat) (rest : List Char)
    (hrest : EndsNumber rest) : ∀ members : List (String × Json), membersExact members = true →
      Token.scan (printMembers layout depth members ++ rest) =
        memberTokens members ++ Token.scan rest
  | [], _ => rfl
  | (name, value) :: members, h => by
      rw [membersExact, Bool.and_eq_true] at h
      simp only [printMembers, memberTokens, List.append_assoc, List.cons_append]
      rw [scan_mark _ (by decide) rfl, scan_blanks _ (hlayout.line _), scan_quote,
        scan_mark _ (by decide) rfl, scan_blanks _ hlayout.afterColon,
        scan_print hlayout _ _ (hrest.members _ members) value h.1,
        scan_printMembers hlayout _ _ hrest members h.2]

end

namespace Tree

/-- A value is not mistaken for the end of the array that it begins. -/
private theorem build_firstItem (frames : List Frame) (value : Json) (rest : List Token) :
    build (.reading (.array [] :: frames) .firstItem) (value.tokens ++ rest) =
      build (.reading (.array [] :: frames) .value) (value.tokens ++ rest) := by
  cases value with
  | array items => cases items <;> simp [tokens, build, step, endContainer?]
  | object members => cases members <;> simp [tokens, build, step, endContainer?]
  | _ => simp [tokens, build, step, endContainer?]

mutual

/-- The tokens of a value are read into its tree, whatever containers are open. -/
theorem build_tokens (frames : List Frame) (rest : List Token) : ∀ value : Json,
    build (.reading frames .value) (value.tokens ++ rest) =
      build (settle frames (ofValue value)) rest
  | .null => rfl
  | .bool value => rfl
  | .number value => rfl
  | .string value => rfl
  | .array [] => rfl
  | .array (item :: items) => by
      simp only [tokens, List.cons_append, List.append_assoc]
      change build (.reading (.array [] :: frames) .firstItem) _ = _
      rw [build_firstItem, build_tokens _ _ item]
      exact build_itemTokens frames rest items [ofValue item]
  | .object [] => rfl
  | .object ((name, value) :: members) => by
      simp only [tokens, List.cons_append, List.append_assoc]
      change build (.reading (.member [] (some name) :: frames) .value) _ = _
      rw [build_tokens _ _ value]
      exact build_memberTokens frames rest members [(some name, ofValue value)]

theorem build_itemTokens (frames : List Frame) (rest : List Token) :
    ∀ (items : List Json) (read : List Tree),
      build (.reading (.array read :: frames) .separator)
          (itemTokens items ++ ([.closeArray] ++ rest)) =
        build (settle frames (.array (read.reverse ++ ofItems items) true)) rest
  | [], read => by
      rw [ofItems, List.append_nil]
      rfl
  | item :: items, read => by
      simp only [itemTokens, List.cons_append, List.append_assoc]
      change build (.reading (.array read :: frames) .value) _ = _
      rw [build_tokens _ _ item]
      simpa [ofItems, settle] using build_itemTokens frames rest items (ofValue item :: read)

theorem build_memberTokens (frames : List Frame) (rest : List Token) :
    ∀ (members : List (String × Json)) (read : List (Option String × Tree)),
      build (.reading (.object read :: frames) .separator)
          (memberTokens members ++ ([.closeObject] ++ rest)) =
        build (settle frames (.object (read.reverse ++ ofMembers members) true)) rest
  | [], read => by
      rw [ofMembers, List.append_nil]
      rfl
  | (name, value) :: members, read => by
      simp only [memberTokens, List.cons_append, List.append_assoc]
      change build (.reading (.member read (some name) :: frames) .value) _ = _
      rw [build_tokens _ _ value]
      simpa [ofMembers, settle, member] using
        build_memberTokens frames rest members ((some name, ofValue value) :: read)

end

end Tree

theorem ofText_print (hlayout : layout.IsBlank) {value : Json} (hvalue : value.isExact = true)
    {blanks : List Char} (hblanks : ∀ c ∈ blanks, isBlank c = true) :
    Tree.ofText (value.print layout 0 ++ blanks) = (Tree.ofValue value, true) := by
  have hend : EndsNumber blanks := by
    rw [← List.append_nil blanks]
    exact .blanks hblanks (by rintro c ⟨⟩)
  have hscan : Token.scan blanks = [] := by
    rw [← List.append_nil blanks, scan_blanks _ hblanks]
    rfl
  rw [Tree.ofText, scan_print hlayout 0 blanks hend value hvalue, hscan, Tree.build_tokens]
  rfl

end PromptRegistry.Json
