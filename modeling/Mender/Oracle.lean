import Mender.Fix.Answer
import Mender.Model.Cache
import Mender.Prompt.Request
import Mender.Prompt.System
import Mender.Retry

/-! The oracle: a language model that is sent a batch and answers with fixes. Whatever goes wrong with
the model is an answer too, one without fixes. -/

namespace Mender

inductive ResponseStatus where
  | success
  | error
  deriving DecidableEq

structure Response where
  status : ResponseStatus
  message : String
  fixes : List Fix
  deriving DecidableEq

namespace Response

def failed (message : String) : Response := ⟨.error, message, []⟩

end Response

structure Oracle where
  retry : Retry
  maxTokens : Number
  layout : Request.Layout

namespace Oracle

def usual : Oracle := ⟨Retry.ofOptions none none, .ofNat 4000, Request.Layout.made⟩

def model (config : ModelConfig) : Act (Except Failure Model) := do
  match ModelCache.create config (← get).cache with
  | .error fault => return .error (.model fault)
  | .ok (model, cache) =>
    modify fun w => { w with cache }
    return .ok model

/-- One question to the model, with the system prompt as the project has it now. -/
def askOnce (o : Oracle) (model : Model) (projectPath prompt : String) :
    Act (Except Failure String) := do
  let system ← Prompt.systemFor projectPath
  World.ask ⟨model, system, prompt, o.maxTokens⟩

def ask (o : Oracle) (config : ModelConfig) (projectPath prompt : String) :
    Act (Except Failure String) := do
  match ← model config with
  | .error f => return .error f
  | .ok model =>
    let horizon := (← get).replies.items.length
    o.retry.run horizon "fix-oracle" World.pacing (o.askOnce model projectPath prompt)

/-- The fixes of an answer; blocks that are skipped are warned of. -/
def readFixes (answer : List Char) : Act (List Fix) := do
  (Answer.skipped answer).forM fun issues =>
    World.sayDebug .warn (Answer.Issue.messageOf issues)
  return Answer.fixes answer

/-- The response to a batch. The one failure is a file whose content is no text. -/
def consult (o : Oracle) (r : Request) : Act (Except Failure Response) := do
  match ModelConfig.ofEnvironment (← get).environment with
  | .error fault => return .ok (.failed ("Model configuration unavailable: " ++ fault.message))
  | .ok config =>
    match Prompt.user r with
    | .error f => return .error f
    | .ok prompt =>
      World.showDebug "📤 Batch request" (r.toJson o.layout)
      match ← o.ask config r.projectPath prompt with
      | .error f => return .ok (.failed ("Error communicating with the model: " ++ f.message))
      | .ok answer =>
        let fixes ← readFixes answer.toList
        World.sayDebug .log ("📥 " ++ config.provider ++ "/" ++ config.modelName ++ " proposed " ++
          toString fixes.length ++ " fixes")
        World.showDebug "Parsed fixes" (.list (fixes.map Fix.toJson))
        return .ok ⟨.success, answer, fixes⟩

end Oracle
end Mender
