import Mathlib.Algebra.Group.Nat.Defs
import Mathlib.Data.List.Induction
import PromptRegistry.Proofs.Number.Decimal
import PromptRegistry.Proofs.Text.Split
import PromptRegistry.Proofs.Url.Directory
import PromptRegistry.Proofs.Url.Host
import PromptRegistry.Settings.Basic

/-! # What variables give -/

namespace PromptRegistry.Settings

def variableNames : List String := [publicKeyName, secretKeyName, baseUrlName, timeoutName]

def AreTrimmed (lookup : String → Option String) (values : String → String) : Prop :=
  ∀ name ∈ variableNames, IsTrimmed ((lookup name).getD "") (values name)

def baseUrlText (values : String → String) : String :=
  if values baseUrlName = "" then defaultBaseUrl else values baseUrlName

/-- The seconds that are given, or else the default. -/
def GivesSeconds (values : String → String) (seconds : Nat) : Prop :=
  if values timeoutName = "" then seconds = 30
  else IsCount (values timeoutName).toList seconds ∧ seconds < 2 ^ 64

/-- What settings are made from values, or which failure is the first. -/
inductive Resolves (toAscii : Url.ToAscii) (values : String → String) :
    Except Failure Settings → Prop
  | missingKey (hkeys : values publicKeyName = "" ∨ values secretKeyName = "") :
      Resolves toAscii values (.error (.message
        ("Langfuse public key and secret key must be provided. " ++
          "Please set LANGFUSE_PUBLIC_KEY and LANGFUSE_SECRET_KEY")))
  | badUrl (hpublic : values publicKeyName ≠ "") (hsecret : values secretKeyName ≠ "")
      {fault : Url.Fault} (hbase : Url.parse (baseUrlText values) toAscii = .error fault) :
      Resolves toAscii values
        (.error (.context ("Invalid LANGFUSE_BASE_URL: " ++ baseUrlText values) (.url fault)))
  | badTimeout (hpublic : values publicKeyName ≠ "") (hsecret : values secretKeyName ≠ "")
      {base : Url} (hbase : Url.parse (baseUrlText values) toAscii = .ok base)
      (hseconds : ∀ seconds, ¬GivesSeconds values seconds) {fault : CountFault}
      (hfault : fault = .tooLarge ↔ Overruns maxWord (values timeoutName).toList) :
      Resolves toAscii values
        (.error (.context ("Invalid PROMPTHUB_TIMEOUT_SECS: " ++ values timeoutName)
          (.count fault)))
  | settled (hpublic : values publicKeyName ≠ "") (hsecret : values secretKeyName ≠ "")
      {base : Url} (hbase : Url.parse (baseUrlText values) toAscii = .ok base)
      {seconds : Nat} (hseconds : GivesSeconds values seconds) :
      Resolves toAscii values
        (.ok ⟨base.asDirectory, values publicKeyName, values secretKeyName, 10, seconds⟩)

section

variable {toAscii : Url.ToAscii} {lookup : String → Option String} {values : String → String}

theorem setting?_eq {name value : String} (h : IsTrimmed ((lookup name).getD "") value) :
    setting? lookup name = if value = "" then none else some value := by
  obtain rfl := h.eq_trim
  unfold setting?
  cases lookup name with
  | none => rfl
  | some text => by_cases hblank : trim text = "" <;> simp [hblank]

def givenSeconds (values : String → String) : Except Failure Nat :=
  if values timeoutName = "" then .ok 30 else readTimeout (values timeoutName)

theorem ofLookup_eq (h : AreTrimmed lookup values) :
    ofLookup lookup toAscii =
      if values publicKeyName = "" ∨ values secretKeyName = "" then .error missingKeys
      else (readBaseUrl toAscii (baseUrlText values)).bind fun base =>
        (givenSeconds values).map fun seconds =>
          ⟨base.asDirectory, values publicKeyName, values secretKeyName, 10, seconds⟩ := by
  have hpublic := setting?_eq (h publicKeyName (by simp [variableNames]))
  have hsecret := setting?_eq (h secretKeyName (by simp [variableNames]))
  have hbase := setting?_eq (h baseUrlName (by simp [variableNames]))
  have htimeout := setting?_eq (h timeoutName (by simp [variableNames]))
  have htext : (setting? lookup baseUrlName).getD defaultBaseUrl = baseUrlText values := by
    rw [hbase, baseUrlText]
    split <;> rfl
  rw [ofLookup, hpublic, hsecret, htext, htimeout]
  by_cases hkeys : values publicKeyName = "" ∨ values secretKeyName = ""
  · rw [if_pos hkeys]
    rcases hkeys with hkey | hkey
    · rw [if_pos hkey]
    · rw [if_pos hkey]
      split <;> simp_all
  · rw [if_neg hkeys]
    obtain ⟨hpublic, hsecret⟩ := not_or.mp hkeys
    rw [if_neg hpublic, if_neg hsecret]
    cases readBaseUrl toAscii (baseUrlText values) with
    | error failure => rfl
    | ok base =>
        rw [givenSeconds]
        by_cases hblank : values timeoutName = ""
        · simp only [hblank, if_true]
          rfl
        · simp only [hblank, if_false]
          cases hread : readTimeout (values timeoutName) <;> rfl

end

theorem lt_iff_le_maxWord {n : Nat} : n < 2 ^ 64 ↔ n ≤ maxWord := by
  rw [show maxWord = 2 ^ 64 - 1 from rfl]
  omega

section

variable {text : String}

theorem readTimeout_eq_ok_iff {seconds : Nat} :
    readTimeout text = .ok seconds ↔ IsCount text.toList seconds ∧ seconds < 2 ^ 64 := by
  rw [lt_iff_le_maxWord, ← readCount_eq_ok_iff, readTimeout]
  cases readCount maxWord text.toList <;> simp

theorem readTimeout_eq_error {failure : Failure} (h : readTimeout text = .error failure) :
    ∃ fault, failure = .context ("Invalid PROMPTHUB_TIMEOUT_SECS: " ++ text) (.count fault) ∧
      (fault = .tooLarge ↔ Overruns maxWord text.toList) := by
  unfold readTimeout at h
  cases hcount : readCount maxWord text.toList with
  | ok seconds => simp [hcount] at h
  | error fault =>
      rw [hcount] at h
      refine ⟨fault, (Except.error.inj h).symm, ?_⟩
      rw [← readCount_tooLarge_iff, hcount]
      simp

end

section

variable {values : String → String}

theorem givesSeconds_iff {seconds : Nat} :
    GivesSeconds values seconds ↔ givenSeconds values = .ok seconds := by
  unfold GivesSeconds givenSeconds
  split
  · rw [Except.ok.injEq, eq_comm]
  · exact readTimeout_eq_ok_iff.symm

theorem givesSeconds_le {seconds : Nat} (h : GivesSeconds values seconds) : seconds ≤ maxWord := by
  apply lt_iff_le_maxWord.mp
  unfold GivesSeconds at h
  split at h <;> omega

theorem givenSeconds_eq_error (h : ∀ seconds, ¬GivesSeconds values seconds) :
    ∃ fault, givenSeconds values =
        .error (.context ("Invalid PROMPTHUB_TIMEOUT_SECS: " ++ values timeoutName)
          (.count fault)) ∧
      (fault = .tooLarge ↔ Overruns maxWord (values timeoutName).toList) := by
  cases hread : givenSeconds values with
  | ok seconds => exact absurd (givesSeconds_iff.mpr hread) (h seconds)
  | error failure =>
      rw [givenSeconds] at hread
      split at hread
      case isTrue => cases hread
      case isFalse =>
        obtain ⟨fault, rfl, hfault⟩ := readTimeout_eq_error hread
        exact ⟨fault, rfl, hfault⟩

end

section

variable {toAscii : Url.ToAscii} {lookup : String → Option String} {values : String → String}

theorem resolves_ofLookup (h : AreTrimmed lookup values) :
    Resolves toAscii values (ofLookup lookup toAscii) := by
  rw [ofLookup_eq h]
  split
  case isTrue hkeys => exact .missingKey hkeys
  case isFalse hkeys =>
    obtain ⟨hpublic, hsecret⟩ := not_or.mp hkeys
    cases hbase : Url.parse (baseUrlText values) toAscii with
    | error fault =>
        rw [readBaseUrl, hbase]
        exact .badUrl hpublic hsecret hbase
    | ok base =>
        rw [readBaseUrl, hbase]
        by_cases hseconds : ∃ seconds, GivesSeconds values seconds
        · obtain ⟨seconds, hseconds⟩ := hseconds
          rw [givesSeconds_iff.mp hseconds]
          exact .settled hpublic hsecret hbase hseconds
        · have hnone := not_exists.mp hseconds
          obtain ⟨fault, hread, hfault⟩ := givenSeconds_eq_error hnone
          rw [hread]
          exact .badTimeout hpublic hsecret hbase hnone hfault

theorem Resolves.eq_ofLookup (h : AreTrimmed lookup values) {result : Except Failure Settings}
    (hresult : Resolves toAscii values result) : ofLookup lookup toAscii = result := by
  rw [ofLookup_eq h]
  cases hresult with
  | missingKey hkeys =>
      rw [if_pos hkeys]
      rfl
  | badUrl hpublic hsecret hbase =>
      rw [if_neg (not_or.mpr ⟨hpublic, hsecret⟩), readBaseUrl, hbase]
      rfl
  | badTimeout hpublic hsecret hbase hseconds hfault =>
      obtain ⟨fault, hread, hfault'⟩ := givenSeconds_eq_error hseconds
      obtain rfl := CountFault.eq_of_tooLarge_iff (hfault.trans hfault'.symm)
      rw [if_neg (not_or.mpr ⟨hpublic, hsecret⟩), readBaseUrl, hbase, hread]
      rfl
  | settled hpublic hsecret hbase hseconds =>
      rw [if_neg (not_or.mpr ⟨hpublic, hsecret⟩), readBaseUrl, hbase, givesSeconds_iff.mp hseconds]
      rfl

end

theorem baseUrl_of_ofLookup {settings : Settings} (h : ofLookup lookup toAscii = .ok settings) :
    ∃ base : Url, settings.baseUrl = base.asDirectory := by
  have hvalues : AreTrimmed lookup fun name => trim ((lookup name).getD "") :=
    fun name _ => isTrimmed_trim _
  have hresolves : Resolves toAscii _ (ofLookup lookup toAscii) := resolves_ofLookup hvalues
  rw [h] at hresolves
  cases hresolves with
  | @settled _ _ base => exact ⟨base, rfl⟩

theorem parse_defaultBaseUrl (h : Url.KeepsPlainNames toAscii) :
    ∃ base, Url.parse defaultBaseUrl toAscii = .ok base ∧ base.text = defaultBaseUrl := by
  have hscheme : Url.readScheme?
      (Url.withoutBreaks (trimBoth (·.toNat ≤ 0x20) defaultBaseUrl.toList)) =
        some ("https".toList, "//cloud.langfuse.com/".toList) := by decide +kernel
  have hhost : Url.hostText (Url.specialSchemes.contains "https".toList)
      ("//cloud.langfuse.com/".toList.dropWhile (Url.isSlash true)) =
        "cloud.langfuse.com".toList := by decide +kernel
  have hname : Url.IsPlainName "cloud.langfuse.com".toList :=
    ⟨by decide, by decide +kernel⟩
  refine ⟨⟨"https".toList, [], [], some "cloud.langfuse.com".toList, none, .segments [[]], none,
    none⟩, ?_, by decide +kernel⟩
  rw [Url.parse_of_special hscheme (by decide) (by decide),
    Url.readAuthority_of_plain h (hhost ▸ hname)]
  decide +kernel

/-- The trimmed values of the variables decide what settings are made, or which failure is the
first. So look-ups with the same trimmed values give the same. The base URL that is kept ends in a
slash if it has segments, and a timeout of digits is never taken modulo a power of two. The default
base URL is always read. -/
theorem trimmed_values_resolve (toAscii : Url.ToAscii) {lookup : String → Option String}
    {values : String → String} (hvalues : AreTrimmed lookup values) :
    (∀ result, ofLookup lookup toAscii = result ↔ Resolves toAscii values result) ∧
      (∀ other, AreTrimmed other values → ofLookup other toAscii = ofLookup lookup toAscii) ∧
      (∀ settings path, ofLookup lookup toAscii = .ok settings →
        settings.baseUrl.path = .segments path →
        settings.baseUrl.path.text.getLast? = some '/') ∧
      (∀ base seconds, values publicKeyName ≠ "" → values secretKeyName ≠ "" →
        Url.parse (baseUrlText values) toAscii = .ok base →
        IsCount (values timeoutName).toList seconds → 2 ^ 64 ≤ seconds →
        ofLookup lookup toAscii =
          .error (.context ("Invalid PROMPTHUB_TIMEOUT_SECS: " ++ values timeoutName)
            (.count .tooLarge))) ∧
      (Url.KeepsPlainNames toAscii → values baseUrlName = "" →
        ∃ base, Url.parse (baseUrlText values) toAscii = .ok base ∧
          base.text = defaultBaseUrl) := by
  refine ⟨fun result => ⟨?_, Resolves.eq_ofLookup hvalues⟩, fun other hother => ?_,
    fun settings path hsettings hpath => ?_,
    fun base seconds hpublic hsecret hbase hcount hlarge => ?_, fun hkeeps hunset => ?_⟩
  · rintro rfl
    exact resolves_ofLookup hvalues
  · exact (resolves_ofLookup hvalues).eq_ofLookup hother
  · obtain ⟨base, hbase⟩ := baseUrl_of_ofLookup hsettings
    rw [hbase] at hpath ⊢
    cases hsegments : base.path with
    | segments segments => exact Url.asDirectory_getLast hsegments
    | rigid rigid =>
        obtain ⟨text, hrigid⟩ := Url.asDirectory_of_rigid hsegments
        rw [hrigid] at hpath
        cases hpath
  · have hover : Overruns maxWord (values timeoutName).toList := hcount.overruns hlarge
    have hset : values timeoutName ≠ "" := fun hblank => hcount.ne_nil (by rw [hblank]; rfl)
    have hnone : ∀ seconds, ¬GivesSeconds values seconds := by
      intro seconds hgives
      have hle := givesSeconds_le hgives
      rw [GivesSeconds, if_neg hset] at hgives
      exact hover.not_isCount hle hgives.1
    exact (Resolves.badTimeout hpublic hsecret hbase hnone
      (iff_of_true rfl hover)).eq_ofLookup hvalues
  · rw [baseUrlText, if_pos hunset]
    exact parse_defaultBaseUrl hkeeps

/-- A base URL with an international name, a count with leading zeros and blanks of several kinds,
and a count that is too large by one. -/
theorem padded_values_resolve :
    let toAscii := Url.withName "☃.net" "xn--n3h.net" Url.asciiNames
    let lookup (url timeout name : String) : Option String :=
      if name = publicKeyName then some "\u3000pk" else if name = secretKeyName then some "sk\n"
      else if name = baseUrlName then some url else if name = timeoutName then some timeout
      else none
    let values (url timeout name : String) : String :=
      if name = publicKeyName then "pk" else if name = secretKeyName then "sk"
      else if name = baseUrlName then url else if name = timeoutName then timeout else ""
    let base : Url := ⟨"http".toList, [], [], some "xn--n3h.net".toList, none, .segments [[]], none,
      none⟩
    AreTrimmed (lookup "http://☃.net " "+0060\u00a0") (values "http://☃.net" "+0060") ∧
      ofLookup (lookup "http://☃.net " "+0060\u00a0") toAscii = .ok ⟨base, "pk", "sk", 10, 60⟩ ∧
      base.path.text.getLast? = some '/' ∧
      AreTrimmed (lookup "" "18446744073709551616") (values "" "18446744073709551616") ∧
      Url.KeepsPlainNames toAscii ∧
      ofLookup (lookup "" "18446744073709551616") toAscii =
        .error (.context "Invalid PROMPTHUB_TIMEOUT_SECS: 18446744073709551616"
          (.count .tooLarge)) := by
  intro toAscii lookup values base
  have hkeeps : Url.KeepsPlainNames toAscii :=
    Url.asciiNames_keepsPlainNames.withName (by decide +kernel)
  have hparse : Url.parse (baseUrlText (values "http://☃.net" "+0060")) toAscii = .ok base := by
    decide +kernel
  have hpadded : AreTrimmed (lookup "http://☃.net " "+0060\u00a0")
      (values "http://☃.net" "+0060") := by
    simp only [AreTrimmed, variableNames, List.forall_mem_cons, isTrimmed_iff]
    decide +kernel
  have hlarge : AreTrimmed (lookup "" "18446744073709551616")
      (values "" "18446744073709551616") := by
    simp only [AreTrimmed, variableNames, List.forall_mem_cons, isTrimmed_iff]
    decide +kernel
  have hseconds : GivesSeconds (values "http://☃.net" "+0060") 60 := by
    have hvalue : values "http://☃.net" "+0060" timeoutName = "+0060" := by decide +kernel
    rw [GivesSeconds, hvalue, if_neg (by decide)]
    exact ⟨⟨"0060".toList, .inr rfl, by decide, List.all_eq_true.mp rfl, rfl⟩, by decide⟩
  have hvalue : values "" "18446744073709551616" timeoutName = "18446744073709551616" := by
    decide +kernel
  have hcount : IsCount (values "" "18446744073709551616" timeoutName).toList (2 ^ 64) := by
    rw [hvalue]
    exact ⟨"18446744073709551616".toList, .inl rfl, by decide, List.all_eq_true.mp rfl,
      by decide +kernel⟩
  have hpublic (url timeout : String) : values url timeout publicKeyName = "pk" := if_pos rfl
  have hsecret (url timeout : String) : values url timeout secretKeyName = "sk" :=
    (if_neg (by decide)).trans (if_pos rfl)
  have hpublic' (url timeout : String) : values url timeout publicKeyName ≠ "" := by
    rw [hpublic]
    decide
  have hsecret' (url timeout : String) : values url timeout secretKeyName ≠ "" := by
    rw [hsecret]
    decide
  obtain ⟨hresolves, -, hends, -⟩ := trimmed_values_resolve toAscii hpadded
  obtain ⟨-, -, -, htoo, hdefault⟩ := trimmed_values_resolve toAscii hlarge
  have hsettings := (hresolves _).mpr (.settled (hpublic' _ _) (hsecret' _ _) hparse hseconds)
  rw [hpublic, hsecret] at hsettings
  have hslash := hends _ [[]] hsettings rfl
  obtain ⟨cloud, hcloud, -⟩ := hdefault hkeeps rfl
  have hfailure := htoo cloud (2 ^ 64) (hpublic' _ _) (hsecret' _ _) hcloud hcount (Nat.le_refl _)
  rw [hvalue] at hfailure
  exact ⟨hpadded, hsettings, hslash, hlarge, hkeeps, hfailure⟩

end PromptRegistry.Settings
