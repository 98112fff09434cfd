import Mender.Text.Case
import Mender.World

/-! Which model to ask: the settings that name it, its provider and the key it takes. Providers whose
models run in a place of their own choosing need no key. -/

namespace Mender

open Mender.Text

inductive Provider where
  | openai
  | anthropic
  | gemini
  | google
  | openaiCompatible
  | ollama
  deriving DecidableEq

namespace Provider

def name : Provider → String
  | .openai => "openai"
  | .anthropic => "anthropic"
  | .gemini => "gemini"
  | .google => "google"
  | .openaiCompatible => "openai-compatible"
  | .ollama => "ollama"

def all : List Provider := [.openai, .anthropic, .gemini, .google, .openaiCompatible, .ollama]

def ofName? (name : String) : Option Provider := all.find? fun p => p.name == name

theorem ofName?_name (p : Provider) : ofName? p.name = some p := by cases p <;> decide

def keySetting : Provider → String
  | .openai => "OPENAI_API_KEY"
  | .anthropic => "ANTHROPIC_API_KEY"
  | .gemini | .google => "GEMINI_API_KEY"
  | .openaiCompatible => "OPENAI_COMPATIBLE_API_KEY"
  | .ollama => "OLLAMA_API_KEY"

/-- The setting that holds the address, for providers that have none of their own. -/
def addressSetting? : Provider → Option String
  | .openaiCompatible => some "OPENAI_COMPATIBLE_BASE_URL"
  | .ollama => some "OLLAMA_BASE_URL"
  | _ => none

end Provider

def lowerCase (s : String) : String := String.ofList (toLower s.toList)

structure ModelConfig where
  provider : String
  modelName : String
  apiKey : String
  baseURL : Option String
  deriving DecidableEq

namespace ModelConfig

/-- A setting that is there and not empty. -/
def given? (environment : List (String × String)) (name : String) : Option String :=
  (environment.lookup name).filter (· != "")

def ofEnvironment (environment : List (String × String)) : Except ModelFault ModelConfig := do
  let some given := given? environment "MODEL_PROVIDER" | throw .nameless
  let some modelName := given? environment "MODEL_NAME" | throw .nameless
  let provider := lowerCase given
  let some p := Provider.ofName? provider | throw (.unknownProvider provider)
  let key? := given? environment p.keySetting
  if key? = none ∧ p.addressSetting? = none then throw (.keyMissing p.keySetting)
  return {
    provider, modelName
    apiKey := key?.getD ""
    baseURL := p.addressSetting?.bind (given? environment) }

end ModelConfig
end Mender
