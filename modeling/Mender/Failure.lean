import Mender.Number.Shortest
import Mender.Tree.Basic

/-! What can go wrong, by its cause, and the words for it. -/

namespace Mender

inductive Unavailability where
  | notInstalled
  | launchFailed (message : String)
  | stated (message : String)
  deriving DecidableEq

inductive ModelFault where
  | nameless
  | unknownProvider (provider : String)
  | keyMissing (setting : String)
  | unsupportedProvider (provider : String) (supported : List String)
  | addressMissing
  deriving DecidableEq

inductive Limit where
  | maxErrorsPerBatch
  | maxIterations
  deriving DecidableEq

inductive Failure where
  | pageSize (given : Number)
  | pageIndex (given : Number)
  | limit (which : Limit)
  | projectMissing (path : String)
  | unavailable (binary : String) (why : Unavailability)
  | model (fault : ModelFault)
  | contentNotText
  | file (path : String) (fault : FileFault)
  | exhausted (label : String) (retries : Number) (last : String)
  /-- Refused by the model's provider, who says whether asking again can help. -/
  | refused (message : String) (retryable : Bool)
  /-- Reported from outside in words of its own. -/
  | reported (message : String)
  /-- Not an error at all, but a bare value with a text. -/
  | bare (text : String)
  deriving DecidableEq

namespace Limit

def name : Limit → String
  | .maxErrorsPerBatch => "maxErrorsPerBatch"
  | .maxIterations => "maxIterations"

end Limit

namespace Unavailability

def message (binary : String) : Unavailability → String
  | .notInstalled =>
    "PHPStan not found at " ++ binary ++
      ". Run 'composer require --dev phpstan/phpstan' in the project."
  | .launchFailed message => "Failed to launch PHPStan: " ++ message
  | .stated message => message

end Unavailability

namespace ModelFault

def message : ModelFault → String
  | .nameless => "MODEL_PROVIDER and MODEL_NAME are required"
  | .unknownProvider provider => "Unsupported MODEL_PROVIDER: " ++ provider
  | .keyMissing setting => setting ++ " is required"
  | .unsupportedProvider provider supported =>
    "Unsupported MODEL_PROVIDER: " ++ provider ++ ". Supported providers: " ++
      ", ".intercalate supported
  | .addressMissing =>
    "OPENAI_COMPATIBLE_BASE_URL environment variable is required for openai-compatible provider"

end ModelFault

namespace Failure

def message : Failure → String
  | .pageSize given => "Page size must be a positive integer, got " ++ given.toText
  | .pageIndex given => "Page index must be a non-negative integer, got " ++ given.toText
  | .limit which => which.name ++ " must be a positive integer"
  | .projectMissing path => "Project path does not exist: " ++ path
  | .unavailable binary why => why.message binary
  | .model fault => fault.message
  | .contentNotText => "content.split is not a function"
  | .file path fault => fault.message path
  | .exhausted label retries last =>
    "[" ++ label ++ "] Failed after " ++ retries.toText ++ " retries: " ++ last
  | .refused message _ => message
  | .reported message => message
  | .bare text => text

/-- What a bare value leaves out: an error carries a message, anything else is unknown. -/
def cause : Failure → String
  | .bare _ => "unknown"
  | f => f.message

/-- Whether asking again cannot help. -/
def isFinal : Failure → Bool
  | .refused _ retryable => !retryable
  | _ => false

end Failure
end Mender
