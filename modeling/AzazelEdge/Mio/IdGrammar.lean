/-
# The grammar of identifiers

`id_grammar.py`, and what `contracts.py` lets a model write: the kinds an identifier may be of, the
second layer that each of them must pass, and what becomes of an identifier that a model has
written.  One that is refused is never kept, it becomes `invalid-model-id`.
-/
import AzazelEdge.Mio.Hypothesis

namespace AzazelEdge.Mio

open AzazelEdge.Lib AzazelEdge.Lib.Py

/-! ## 1. Shapes -/

/-- `[0-9]{lo,hi}`, and nothing else. -/
def isDigits (lo hi : ℕ) (t : Text) : Bool := decide (lo ≤ t.length ∧ t.length ≤ hi) && t.all isDigit

/-- `[a-z]`. -/
def isSmall (c : ℕ) : Bool := decide (97 ≤ c ∧ c ≤ 122)

/-- `[a-z]{1,16}`, and nothing else. -/
def isSmallWord (t : Text) : Bool := decide (1 ≤ t.length ∧ t.length ≤ 16) && t.all isSmall

/-- What stands behind `lead`, where the text begins with it. -/
def behind (lead : String) (t : Text) : Option Text :=
  if (ascii lead).isPrefixOf t then some (t.drop (ascii lead).length) else none

/-- `[a-z][a-z0-9_]{lo,hi}`, and nothing else. -/
def isName (lo hi : ℕ) : Text → Bool
  | [] => false
  | c :: rest => isSmall c && decide (lo ≤ rest.length ∧ rest.length ≤ hi) &&
      rest.all fun c => isSmall c || isDigit c || decide (c = 95)

/-! ## 2. Kinds -/

/-- The kinds of `ID_KINDS` that a model may write. -/
inductive IdKind where
  | eventId | structuredRef | suricataRef | knowledgeRef | fixtureRef | hypothesisId | gapId
  | capability
  deriving DecidableEq

/-- `EVIDENCE_REF_KINDS`. -/
def evidenceRefKinds : List String := ["alert", "auth", "dns", "flow", "http", "ssh", "tls"]

/-- `kn:attack:T[0-9]{4}(?:\.[0-9]{3})?`, behind the letter. -/
def isTechnique (t : Text) : Bool :=
  isDigits 4 4 (t.take 4) &&
    match t.drop 4 with
    | [] => true
    | c :: rest => decide (c = chDot) && isDigits 3 3 rest

/-- `[a-z]{1,16}(?:-[a-z]{1,16})?-[0-9]{1,3}`. -/
def isFixture (t : Text) : Bool :=
  match t.splitOn chMinus with
  | [name, number] => isSmallWord name && isDigits 1 3 number
  | [name, other, number] => isSmallWord name && isSmallWord other && isDigits 1 3 number
  | _ => false

/-- `ID_KINDS`. -/
def IdKind.shape (t : Text) : IdKind → Bool
  | .eventId => (behind "sha256:" t).any fun rest =>
      decide (rest.length = 64) && rest.all fun c => isDigit c || decide (97 ≤ c ∧ c ≤ 102)
  | .structuredRef => evidenceRefKinds.any fun kind =>
      (behind ("ev:" ++ kind ++ ":") t).any (isDigits 1 6)
  | .suricataRef => (behind "suricata_sid:" t).any (isDigits 1 8)
  | .knowledgeRef => (behind "kn:attack:T" t).any isTechnique
  | .fixtureRef => (behind "sha256:fixture-" t).any isFixture
  | .hypothesisId => (behind "h" t).any (isDigits 1 3)
  | .gapId => (behind "g" t).any (isDigits 1 3)
  | .capability => isName 2 63 t

/-! ## 3. The second layer -/

/-- What this model leaves open of `redaction.py`. -/
class Redaction where
  /-- `contains_token_like`. -/
  tokenLike : PyStr → Bool

/-- The words that `SECRET_WORD_RE` finds. -/
def secretWords : List String :=
  ["password", "passwd", "pwd", "secret", "api_key", "api-key", "apikey", "token", "bearer"]

/-- `SECRET_WORD_RE.search` in an identifier, which is of ASCII. -/
def hasSecretWord (s : PyStr) : Bool :=
  let t := s.map fun c => (shiftCase 65 90 32 c).val
  secretWords.any fun secret => t.tails.any (ascii secret).isPrefixOf

variable {F : Type} [Redaction]

/-- `second_layer_ok`. -/
def secondLayerOk (s : PyStr) : Bool :=
  isOpaqueId s && !(hasSecretWord s || Redaction.tokenLike s)

/-- `id_ok`, of a string. -/
def idOk (kinds : List IdKind) (s : PyStr) : Bool :=
  kinds.any (IdKind.shape (s.map Fin.val)) && secondLayerOk s

/-- `UNREGISTERED_CAPABILITY`. -/
def unregisteredCapability : PyStr := pyStr "unregistered-capability"

/-- `capability_label`. -/
def capabilityLabel (capability : PyStr) (registered : List PyStr) : PyStr :=
  if capability ∈ registered ∧ idOk [.capability] capability then capability
  else unregisteredCapability

/-! ## 4. What a model writes -/

/-- The fields of `MODEL_ID_GRAMMAR`. -/
inductive ModelIdField where
  | evidenceRef | hypothesisId | gapId | capability
  deriving DecidableEq

/-- `MODEL_ID_GRAMMAR`. -/
def ModelIdField.kinds : ModelIdField → List IdKind
  | .evidenceRef => [.eventId, .structuredRef, .suricataRef, .knowledgeRef, .fixtureRef]
  | .hypothesisId => [.hypothesisId]
  | .gapId => [.gapId]
  | .capability => [.capability]

/-- `safe_model_id`, of a string. -/
def safeId (field : ModelIdField) (s : PyStr) : PyStr := if idOk field.kinds s then s else invalidModelId

/-- `safe_model_id`. -/
def safeModelId (field : ModelIdField) : PyJson F → PyStr
  | .str s => safeId field s
  | _ => invalidModelId

/-- A value that is missing or empty, which is no identifier at all. -/
def isBlank : Option (PyJson F) → Bool
  | none => true
  | some .null => true
  | some (.str s) => decide (s = [])
  | some _ => false

/-- `_model_id`. -/
def modelId (default : PyStr) (field : ModelIdField) (value : Option (PyJson F)) : PyStr :=
  if isBlank value then default else (value.map (safeModelId field)).getD default

/-- An item that `_model_id_list` takes. -/
def pickModelId (field : ModelIdField) (value : PyJson F) : Option PyStr :=
  if isBlank (some value) then none else some (safeModelId field value)

/-- `_model_id_list`. -/
def modelIdList (limit : ℕ) (field : ModelIdField) (values : Option (PyJson F)) : List PyStr :=
  collect limit (pickModelId field) (Arbiter.asList values)

end AzazelEdge.Mio
