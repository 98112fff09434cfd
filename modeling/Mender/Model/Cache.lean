import Mender.Model.Config

/-! Models, made once for each provider, name and address. -/

namespace Mender

namespace ModelConfig

def provider? (c : ModelConfig) : Option Provider := Provider.ofName? (lowerCase c.provider)

/-- What requests for a model are told apart by. -/
def cacheKey (c : ModelConfig) : String :=
  lowerCase c.provider ++ "-" ++ c.modelName ++ "-" ++ c.baseURL.getD ""

/-- A text, unless it is missing or empty. -/
def orDefault (text? : Option String) (default : String) : String :=
  (text?.filter (· != "")).getD default

def construct (c : ModelConfig) (id : Nat) : Except ModelFault Model :=
  match c.provider? with
  | none => .error (.unsupportedProvider c.provider (Provider.all.map Provider.name))
  | some .openai => .ok ⟨id, .openai, c.apiKey, none, c.modelName⟩
  | some .anthropic => .ok ⟨id, .anthropic, c.apiKey, none, c.modelName⟩
  | some .gemini | some .google => .ok ⟨id, .google, c.apiKey, none, c.modelName⟩
  | some .openaiCompatible =>
    match c.baseURL.filter (· != "") with
    | none => .error .addressMissing
    | some address =>
      .ok ⟨id, .openai, orDefault (some c.apiKey) "dummy-key", some address, c.modelName⟩
  | some .ollama =>
    .ok ⟨id, .openai, orDefault (some c.apiKey) "ollama",
      some (orDefault c.baseURL "http://localhost:11434/v1"), c.modelName⟩

end ModelConfig

namespace ModelCache

/-- The model for a configuration, and the cache with it. A model that was made before is handed out
again. -/
def create (c : ModelConfig) (cache : ModelCache) : Except ModelFault (Model × ModelCache) :=
  match cache.models.lookup c.cacheKey with
  | some model => .ok (model, cache)
  | none =>
    (c.construct (cache.made + 1)).map fun model =>
      (model, ⟨cache.made + 1, (c.cacheKey, model) :: cache.models⟩)

/-- Forgets all models; those made later go on counting. -/
def clear (cache : ModelCache) : ModelCache := { cache with models := [] }

end ModelCache
end Mender
