import PromptRegistry.Proofs.Text.Base64
import PromptRegistry.Proofs.Text.Split
import PromptRegistry.Proofs.Text.Utf8
import PromptRegistry.Remote.Client

namespace PromptRegistry

namespace Base64

theorem isHeaderChar_letter (n : Nat) : Remote.isHeaderChar (letter n) = true := by
  by_cases hn : n < 64
  · have hletters : ∀ n < 64, Remote.isHeaderChar (letter n) = true := by decide
    exact hletters n hn
  · have hslash : letter n = '/' := by
      unfold letter
      rw [if_neg (by omega), if_neg (by omega), if_neg (by omega), if_neg (by omega)]
    rw [hslash]
    rfl

theorem encode_isHeaderChar (bytes : List UInt8) :
    ∀ c ∈ encode bytes, Remote.isHeaderChar c = true := by
  have hequals : Remote.isHeaderChar '=' = true := rfl
  induction bytes using encode.induct with
  | case1 => simp [encode]
  | case2 a => simp [encode, isHeaderChar_letter, hequals]
  | case3 a b => simp [encode, isHeaderChar_letter, hequals]
  | case4 a b c rest ih =>
      simp only [encode, List.forall_mem_cons, isHeaderChar_letter, true_and]
      exact ih

end Base64

namespace Remote

theorem authorization_eq (settings : Settings) :
    authorization settings = .ok (credentials settings) := by
  obtain ⟨bytes, hvalue⟩ : ∃ bytes, (credentials settings).toList =
      "Basic ".toList ++ Base64.encode bytes :=
    ⟨_, String.toList_append.trans (congrArg _ String.toList_ofList)⟩
  have hall : (credentials settings).toList.all isHeaderChar = true := by
    rw [hvalue, List.all_append, Bool.and_eq_true]
    exact ⟨rfl, List.all_eq_true.mpr (Base64.encode_isHeaderChar bytes)⟩
  unfold authorization
  exact if_pos hall

def keyPairBytes (settings : Settings) : List UInt8 :=
  Utf8.encode (settings.publicKey ++ ":" ++ settings.secretKey).toList

/-- The key pair that letters of base 64 stand for, split at the first colon. -/
def readKeyPair? (letters : List Char) : Option (String × String) :=
  (Base64.decode? letters).bind fun bytes =>
    match splitFirst (· == ':') (Utf8.decode bytes) with
    | (publicKey, _ :: secretKey) => some (String.ofList publicKey, String.ofList secretKey)
    | (_, []) => none

/-- The letters for a key pair are read as that pair exactly if the public key has no colon. -/
theorem readKeyPair?_encode (settings : Settings) :
    readKeyPair? (Base64.encode (keyPairBytes settings)) =
        some (settings.publicKey, settings.secretKey) ↔
      ':' ∉ settings.publicKey.toList := by
  have htext : Utf8.decode (keyPairBytes settings) =
      settings.publicKey.toList ++ ':' :: settings.secretKey.toList := by
    simp [keyPairBytes]
  rw [readKeyPair?, Base64.decode?_encode, Option.bind_some, htext]
  constructor
  · intro hread
    cases hsplit : splitFirst (· == ':')
        (settings.publicKey.toList ++ ':' :: settings.secretKey.toList) with
    | mk before after =>
        rw [hsplit] at hread
        cases after with
        | nil => cases hread
        | cons c after =>
            obtain ⟨hkey, -⟩ := Prod.mk.inj (Option.some.inj hread)
            rw [← hkey, String.toList_ofList]
            intro hcolon
            exact absurd ((splitFirst_eq_iff.mp hsplit).2.1 ':' hcolon) (by decide)
  · intro hcolon
    have hsplit : splitFirst (· == ':')
        (settings.publicKey.toList ++ ':' :: settings.secretKey.toList) =
          (settings.publicKey.toList, ':' :: settings.secretKey.toList) := by
      refine splitFirst_eq_iff.mpr ⟨rfl, fun c hc => ?_, by simp⟩
      exact beq_eq_false_iff_ne.mpr fun heq => hcolon (heq ▸ hc)
    simp only [hsplit, String.ofList_toList]

/-- Every key pair makes a header, whose letters are the only ones for its bytes. They are read as
the key pair exactly if the public key has no colon, so that no other such pair has this header. -/
theorem authorization_carries_keys (settings : Settings) :
    ∃ letters, authorization settings = .ok ("Basic " ++ String.ofList letters) ∧
      (∀ text, Base64.decode? text = some (keyPairBytes settings) ↔ letters = text) ∧
      (readKeyPair? letters = some (settings.publicKey, settings.secretKey) ↔
        ':' ∉ settings.publicKey.toList) ∧
      ∀ other : Settings, ':' ∉ settings.publicKey.toList → ':' ∉ other.publicKey.toList →
        authorization settings = authorization other →
        settings.publicKey = other.publicKey ∧ settings.secretKey = other.secretKey := by
  refine ⟨_, authorization_eq settings, fun text => Base64.decode?_eq_some_iff,
    readKeyPair?_encode settings, fun other hfirst hsecond heq => ?_⟩
  have hletters : Base64.encode (keyPairBytes settings) = Base64.encode (keyPairBytes other) := by
    rw [authorization_eq, authorization_eq, Except.ok.injEq, credentials, credentials] at heq
    simpa [keyPairBytes, String.ofList_inj] using heq
  have hread := (readKeyPair?_encode settings).mpr hfirst
  rw [hletters, (readKeyPair?_encode other).mpr hsecond] at hread
  obtain ⟨hpublic, hsecret⟩ := Prod.mk.inj (Option.some.inj hread)
  exact ⟨hpublic.symm, hsecret.symm⟩

theorem keys_with_line_break_are_carried :
    let base : Url :=
      ⟨"https".toList, [], [], some "lf.test".toList, none, .segments [[]], none, none⟩
    let settings : Settings := ⟨base, "p\u00fc\n", "a:b", 10, 60⟩
    let other : Settings := .ofUrl base "p\u00fc\n" "a:b"
    ':' ∉ settings.publicKey.toList ∧ ':' ∉ other.publicKey.toList ∧
      authorization settings = authorization other ∧
      settings.publicKey = other.publicKey ∧ settings.secretKey = other.secretKey ∧
      ∃ letters, authorization settings = .ok ("Basic " ++ String.ofList letters) ∧
        readKeyPair? letters = some ("p\u00fc\n", "a:b") := by
  intro base settings other
  have hcolon : ':' ∉ "p\u00fc\n".toList := by decide
  have hfirst : ':' ∉ settings.publicKey.toList := hcolon
  have hsecond : ':' ∉ other.publicKey.toList := hcolon
  have heq : authorization settings = authorization other := rfl
  obtain ⟨letters, hletters, -, hread, hkeys⟩ := authorization_carries_keys settings
  obtain ⟨hpublic, hsecret⟩ := hkeys other hfirst hsecond heq
  exact ⟨hfirst, hsecond, heq, hpublic, hsecret, letters, hletters, hread.mpr hfirst⟩

end Remote

end PromptRegistry
