import PromptRegistry.Proofs.Text.Split
import PromptRegistry.Proofs.Url.Path

/-! # Paths that end in a slash -/

namespace PromptRegistry.Url

/-- A segment that is kept as it is when the path is read again. -/
structure IsSettled (segment : List Char) : Prop where
  chars : ∀ c ∈ segment, pathSet c = false ∧ isSlash true c = false
  single : isSingleDot segment = false
  double : isDoubleDot segment = false

theorem isSettled_nil : IsSettled [] := ⟨by simp, by decide, by decide⟩

variable {reversed segments : List (List Char)}

theorem encode_pathSet_chars {text : List Char} (h : ∀ c ∈ text, isSlash true c = false) :
    ∀ c ∈ encode pathSet text, pathSet c = false ∧ isSlash true c = false := by
  have hdigits : ∀ n < 16, pathSet (upperHexChar n) = false ∧
      isSlash true (upperHexChar n) = false := by decide
  intro c hc
  rcases mem_encode_cases hc with ⟨hc, hfree⟩ | rfl | ⟨n, hn, rfl⟩
  · exact ⟨hfree, h c hc⟩
  · decide
  · exact hdigits n hn

theorem parentPath_subset (reversed : List (List Char)) : parentPath reversed ⊆ reversed := by
  cases reversed with
  | nil => exact List.Subset.refl _
  | cons segment reversed =>
      rw [parentPath]
      split
      · exact List.Subset.refl _
      · exact List.subset_cons_self segment reversed

/-- Dot segments are taken out when they are added, so only settled segments stay. -/
theorem addSegment_settled (hreversed : ∀ segment ∈ reversed, IsSettled segment)
    {segment : List Char} (hchars : ∀ c ∈ segment, pathSet c = false ∧ isSlash true c = false)
    (last : Bool) : ∀ other ∈ addSegment reversed segment last, IsSettled other := by
  have hparent : ∀ other ∈ parentPath reversed, IsSettled other :=
    fun other h => hreversed other (parentPath_subset reversed h)
  cases hdouble : isDoubleDot segment with
  | true => cases last <;> simpa [addSegment, hdouble, isSettled_nil] using hparent
  | false =>
      cases hsingle : isSingleDot segment with
      | true => cases last <;> simpa [addSegment, hdouble, hsingle, isSettled_nil] using hreversed
      | false =>
          have hsettled : IsSettled segment := ⟨hchars, hsingle, hdouble⟩
          simpa [addSegment, hdouble, hsingle, hsettled] using hreversed

theorem addSegments_settled (hreversed : ∀ segment ∈ reversed, IsSettled segment)
    (hchars : ∀ segment ∈ segments, ∀ c ∈ segment, pathSet c = false ∧ isSlash true c = false) :
    ∀ other ∈ addSegments reversed segments, IsSettled other := by
  induction segments generalizing reversed with
  | nil => exact hreversed
  | cons segment segments ih =>
      obtain ⟨hsegment, hsegments⟩ := List.forall_mem_cons.mp hchars
      cases segments with
      | nil => exact addSegment_settled hreversed hsegment true
      | cons next segments =>
          rw [addSegments]
          · exact ih (addSegment_settled hreversed hsegment false) hsegments
          · simp

theorem addSegments_ne_nil (reversed : List (List Char)) (h : segments ≠ []) :
    addSegments reversed segments ≠ [] := by
  induction segments generalizing reversed with
  | nil => exact absurd rfl h
  | cons segment segments ih =>
      cases segments with
      | nil =>
          simp only [addSegments, addSegment]
          repeat' split
          all_goals simp_all
      | cons next segments =>
          rw [addSegments]
          · exact ih _ (by simp)
          · simp

section

variable {scheme : List Char}

theorem readPath_of_special (hspecial : specialSchemes.contains scheme = true)
    (hfile : scheme ≠ fileScheme) (text : List Char) :
    readPath scheme text =
      extendPath [] ((splitParts (isSlash true) (dropSlash true text)).map (encode pathSet)) := by
  simp [readPath, hfile, List.contains_iff_mem.mp hspecial]

theorem readPath_settled (hspecial : specialSchemes.contains scheme = true)
    (hfile : scheme ≠ fileScheme) (text : List Char) :
    readPath scheme text ≠ [] ∧ ∀ segment ∈ readPath scheme text, IsSettled segment := by
  rw [readPath_of_special hspecial hfile, extendPath, List.reverse_nil]
  constructor
  · simpa using addSegments_ne_nil [] (by simp [splitParts_ne_nil])
  · simp only [List.mem_reverse]
    refine addSegments_settled (by simp) ?_
    simp only [List.forall_mem_map]
    exact fun part hpart => encode_pathSet_chars fun c hc => (of_mem_splitParts hpart c hc).1

theorem splitParts_dropSlash {separated : List (List Char)} (hne : separated ≠ [])
    (hsettled : ∀ segment ∈ separated, IsSettled segment) :
    splitParts (isSlash true) (dropSlash true (Path.segments separated).text) = separated := by
  obtain ⟨first, rest, rfl⟩ := List.exists_cons_of_ne_nil hne
  have hslash : isSlash true '/' = true := rfl
  have hall := splitParts_flatMap hslash
    fun segment h c hc => ((hsettled segment h).chars c hc).2
  rw [List.flatMap_cons, List.cons_append, splitParts_separator rfl] at hall
  exact (List.cons.inj hall).2

/-- Settled segments are found again in the text of their path. -/
theorem readPath_text (hspecial : specialSchemes.contains scheme = true)
    (hfile : scheme ≠ fileScheme) (hne : segments ≠ [])
    (hsettled : ∀ segment ∈ segments, IsSettled segment) :
    readPath scheme (Path.segments segments).text = segments := by
  have hencode : segments.map (encode pathSet) = segments :=
    (List.map_congr_left fun segment h =>
      encode_of_free fun c hc => ((hsettled segment h).chars c hc).1).trans (List.map_id segments)
  rw [readPath_of_special hspecial hfile, splitParts_dropSlash hne hsettled, hencode,
    extendPath_of_names, List.nil_append]
  exact fun segment h => ⟨(hsettled segment h).single, (hsettled segment h).double⟩

end

/-- A path text with a slash at its end. -/
def withSlash (text : List Char) : List Char :=
  if text.getLast? = some '/' then text else text ++ ['/']

theorem text_concat_nil (segments : List (List Char)) :
    (Path.segments (segments ++ [[]])).text = (Path.segments segments).text ++ ['/'] := by
  simp [Path.text]

theorem exists_concat_nil_of_getLast (hsettled : ∀ segment ∈ segments, IsSettled segment)
    (hslash : (Path.segments segments).text.getLast? = some '/') :
    ∃ parent, segments = parent ++ [[]] := by
  rcases List.eq_nil_or_concat segments with rfl | ⟨parent, last, rfl⟩
  · cases hslash
  · cases last with
    | nil => exact ⟨parent, List.concat_eq_append⟩
    | cons c cs =>
        have hlast : (c :: cs).getLast? = some '/' := by
          simpa [Path.text, List.getLast?_append, List.getLast?_cons] using hslash
        have hfree := ((hsettled _ (by simp)).chars '/' (List.mem_of_getLast? hlast)).2
        exact absurd hfree (by decide)

theorem splitParts_dropSlash_concat (special backslash : Bool) (text : List Char) :
    ∃ parts, splitParts (isSlash backslash) (dropSlash special (text ++ ['/'])) =
      parts ++ [[]] := by
  have hslash : isSlash backslash '/' = true := by simp [isSlash]
  cases text with
  | nil => exact ⟨[], by cases special <;> rfl⟩
  | cons c cs =>
      rw [List.cons_append, dropSlash]
      split
      · exact ⟨_, splitParts_concat hslash cs⟩
      · exact ⟨_, splitParts_concat hslash (c :: cs)⟩

theorem addSegments_concat_nil (reversed segments : List (List Char)) :
    ∃ rest, addSegments reversed (segments ++ [[]]) = [] :: rest := by
  induction segments generalizing reversed with
  | nil => exact ⟨reversed, rfl⟩
  | cons segment segments ih =>
      rw [List.cons_append, addSegments]
      · exact ih _
      · simp

theorem DrivePath.addAll_concat_nil (path : DrivePath) (texts : List (List Char)) :
    ∃ rest, (path.addAll (texts ++ [[]])).reversed = [] :: rest := by
  induction texts generalizing path with
  | nil => 
      obtain ⟨reversed, onDrive⟩ := path
      cases reversed <;> exact ⟨_, rfl⟩
  | cons text texts ih =>
      rw [List.cons_append, addAll]
      · exact ih _
      · simp

theorem DrivePath.segments_concat_nil {path : DrivePath} {rest : List (List Char)}
    (h : path.reversed = [] :: rest) : ∃ parent, path.segments = parent ++ [[]] := by
  rw [segments, h, List.reverse_cons, List.dropWhile_append]
  cases rest.reverse.dropWhile List.isEmpty with
  | nil => exact ⟨[], rfl⟩
  | cons first rest => exact ⟨first :: rest, rfl⟩

theorem readPath_concat_slash (scheme text : List Char) :
    ∃ parent, readPath scheme (text ++ ['/']) = parent ++ [[]] := by
  obtain ⟨parts, hparts⟩ := splitParts_dropSlash_concat (specialSchemes.contains scheme)
    (specialSchemes.contains scheme) text
  unfold readPath
  dsimp only
  split
  case isTrue hfile =>
    obtain ⟨parts, hparts⟩ :=
      splitParts_dropSlash_concat (specialSchemes.contains scheme) true text
    obtain ⟨rest, hrest⟩ := DrivePath.addAll_concat_nil ⟨[], false⟩ parts
    rw [DrivePath.ofText, hparts]
    exact DrivePath.segments_concat_nil hrest
  case isFalse =>
    obtain ⟨rest, hrest⟩ := addSegments_concat_nil [] (parts.map (encode pathSet))
    have hencode : encode pathSet [] = [] := rfl
    rw [if_neg (by simp), hparts, List.map_append, List.map_singleton, hencode, extendPath,
      List.reverse_nil, hrest, List.reverse_cons]
    exact ⟨_, rfl⟩

theorem asDirectory_getLast {url : Url} {path : List (List Char)} (h : url.path = .segments path) :
    url.asDirectory.path.text.getLast? = some '/' := by
  unfold asDirectory
  split
  case isTrue hslash => exact hslash
  case isFalse =>
    obtain ⟨parent, hparent⟩ := readPath_concat_slash url.scheme url.path.text
    simp only [setPath, h] at hparent ⊢
    rw [hparent, text_concat_nil, List.getLast?_append]
    rfl

theorem asDirectory_of_rigid {url : Url} {rigid : List Char} (h : url.path = .rigid rigid) :
    ∃ text, url.asDirectory.path = .rigid text := by
  unfold asDirectory
  split
  · exact ⟨rigid, h⟩
  · simp [setPath, h]

theorem asDirectory_asDirectory {url : Url} {path : List (List Char)}
    (h : url.path = .segments path) : url.asDirectory.asDirectory = url.asDirectory := by
  conv_lhs => rw [asDirectory, if_pos (asDirectory_getLast h)]

theorem parse_settled {toAscii : ToAscii} {text : String} {url : Url}
    (h : parse text toAscii = .ok url)
    (hspecial : url.isSpecial = true) (hfile : url.scheme ≠ fileScheme) :
    ∃ segments, url.path = .segments segments ∧ segments ≠ [] ∧
      ∀ segment ∈ segments, IsSettled segment := by
  obtain ⟨-, pathText, hpath⟩ := parse_authority_eq_ok h hspecial hfile
  exact ⟨_, hpath, readPath_settled hspecial hfile pathText⟩

theorem asDirectory_of_settled {url : Url} (hspecial : url.isSpecial = true)
    (hfile : url.scheme ≠ fileScheme) (hpath : url.path = .segments segments) (hne : segments ≠ [])
    (hsettled : ∀ segment ∈ segments, IsSettled segment) :
    ∃ parent, url.asDirectory = { url with path := .segments (parent ++ [[]]) } ∧
      (Path.segments (parent ++ [[]])).text = withSlash url.path.text ∧
      ∀ segment ∈ parent ++ [[]], IsSettled segment := by
  unfold asDirectory withSlash
  split
  case isTrue hslash =>
    rw [hpath] at hslash
    obtain ⟨parent, rfl⟩ := exists_concat_nil_of_getLast hsettled hslash
    exact ⟨parent, by rw [← hpath], by rw [← hpath], hsettled⟩
  case isFalse =>
    have hconcat : ∀ segment ∈ segments ++ [[]], IsSettled segment := by
      simpa [or_imp, forall_and, isSettled_nil] using hsettled
    refine ⟨segments, ?_, by rw [text_concat_nil, hpath], hconcat⟩
    simp only [setPath, hpath]
    rw [← text_concat_nil, readPath_text hspecial hfile (by simp) hconcat]

end PromptRegistry.Url
