import Mender.Proofs.Prompt.Files
import Mender.Proofs.World.Aside
import Mender.Proofs.World.Script

/-! What a batch that is sent to the oracle is answered. The settings of the model, its making and its
answers may all fail, and each failure is a response. Only the prompt is written where a failure is not
caught: a request with a file whose content is no text is not answered at all. -/

namespace Mender

open Retry (Passing Tried)

namespace World

structure Asked (w : World) (n : Nat) (w' : World) : Prop where
  replies : w'.replies = w.replies.skip n
  questions : w'.questions.length = w.questions.length + n

variable {w : World} {n : Nat}

theorem asked_zero (w : World) : Asked w 0 w := ⟨rfl, rfl⟩

theorem Asked.trans {w' w'' : World} {m : Nat} (h : Asked w m w') (h' : Asked w' n w'') :
    Asked w (m + n) w'' where
  replies := by rw [h'.replies, h.replies, Script.skip_add]
  questions := by rw [h'.questions, h.questions, Nat.add_assoc]

instance : Aside (Asked w n) where
  record w' _ noQuestion h :=
    ⟨h.replies, by simpa [World.questions, noQuestion] using h.questions⟩
  cache _ _ h := ⟨h.replies, h.questions⟩

theorem cache_showDebug (label : String) (value : Json) (w : World) :
    ((showDebug label value).run w).2.cache = w.cache := by
  have kept : Keeps (fun w' : World => w'.cache = w.cache) (showDebug label value) :=
    keeps_get.bind fun _ => Keeps.ite (keeps_get.bind fun _ => Keeps.ite (fun _ h => h) (keeps_pure _))
      (keeps_pure _)
  exact kept w rfl

theorem ask_asked (q : Question) {w' : World} (h : Asked w n w') :
    ((ask q).run w').1 = w.replies.nth n ∧ Asked w (n + 1) ((ask q).run w').2 := by
  refine ⟨?_, ?_, ?_⟩
  · rw [Script.nth, ← h.replies]
    rfl
  · rw [Script.skip_succ, ← h.replies]
    rfl
  · change (List.filterMap Event.question? (w'.trace ++ [.ask q])).length = _
    rw [List.filterMap_append, List.length_append]
    exact congrArg (· + 1) h.questions

end World

namespace Oracle

variable {w : World}

theorem askOnce_asked (o : Oracle) (model : Model) (projectPath prompt : String) (n : Nat) (w' : World)
    (h : World.Asked w n w') :
    ((o.askOnce model projectPath prompt).run w').1 = w.replies.nth n ∧
      World.Asked w (n + 1) ((o.askOnce model projectPath prompt).run w').2 :=
  World.ask_asked _ (Prompt.keeps_systemFor (I := World.Asked w n) projectPath w' h)

/-- An answer that decides is among the attempts that are made, even if the policy sets no bound. -/
theorem lt_attempts {p : Retry} {answers : Script (Except Failure String)} {n : Nat}
    (within : ∀ b ∈ p.allowed?, n < b) (before : ∀ i < n, Passing (answers.nth i))
    (decides : ¬ Passing (answers.nth n)) : n < p.attempts answers.items.length := by
  rw [Retry.attempts]
  cases h : p.allowed? with
  | some b => exact within b h
  | none =>
    cases n with
    | zero => exact Nat.le_max_left 1 _
    | succ n =>
      by_contra past
      have ended : answers.items.length ≤ n + 1 := by
        rw [Option.getD_none] at past
        omega
      rw [Script.nth_succ_of_length_le ended] at decides
      exact decides (before n (Nat.lt_succ_self n))

theorem ask_of_create_error (o : Oracle) {config : ModelConfig} {fault : ModelFault}
    (h : ModelCache.create config w.cache = .error fault) (projectPath prompt : String) :
    (o.ask config projectPath prompt).run w = (.error (.model fault), w) := by
  have made : (model config).run w = (.error (.model fault), w) := by
    simp only [model, StateT.run_bind, StateT.run_get, pure_bind, h]
    rfl
  rw [ask, StateT.run_bind, made]
  rfl

theorem ask_of_create_ok (o : Oracle) {config : ModelConfig} {made : Model × ModelCache}
    (h : ModelCache.create config w.cache = .ok made) (projectPath prompt : String) :
    ∃ n, Tried o.retry "fix-oracle" w.replies.nth (o.retry.attempts w.replies.items.length) n
        ((o.ask config projectPath prompt).run w).1 ∧
      World.Asked w n ((o.ask config projectPath prompt).run w).2 := by
  have made_eq : (model config).run w = (.ok made.1, { w with cache := made.2 }) := by
    simp only [model, StateT.run_bind, StateT.run_get, pure_bind, h]
    rfl
  rw [ask, StateT.run_bind, made_eq]
  exact Retry.tried_run (askOnce_asked o made.1 projectPath prompt) (fun _ _ => World.keeps_sayDebug _ _)
    (fun _ _ => World.keeps_sleep _) _ ⟨rfl, rfl⟩

def responseOf : Except Failure String → Response
  | .ok text => ⟨.success, text, Answer.fixes text.toList⟩
  | .error f => .failed ("Error communicating with the model: " ++ f.message)

variable (o : Oracle) {r : Request} {config : ModelConfig}

theorem consult_of_environment_error (r : Request) {fault : ModelFault}
    (h : ModelConfig.ofEnvironment w.environment = .error fault) :
    (o.consult r).run w =
      (.ok (.failed ("Model configuration unavailable: " ++ fault.message)), w) := by
  simp only [consult, StateT.run_bind, StateT.run_get, pure_bind, h]
  rfl

theorem consult_of_not_legible (h : ModelConfig.ofEnvironment w.environment = .ok config)
    (illegible : ¬ Prompt.Legible r) : (o.consult r).run w = (.error .contentNotText, w) := by
  simp only [consult, StateT.run_bind, StateT.run_get, pure_bind, h, Prompt.user_of_not_legible illegible]
  rfl

def respond (config : ModelConfig) : Except Failure String → Act (Except Failure Response)
  | .error f => return .ok (.failed ("Error communicating with the model: " ++ f.message))
  | .ok answer => do
    let fixes ← readFixes answer.toList
    World.sayDebug .log ("📥 " ++ config.provider ++ "/" ++ config.modelName ++ " proposed " ++
      toString fixes.length ++ " fixes")
    World.showDebug "Parsed fixes" (.list (fixes.map Fix.toJson))
    return .ok ⟨.success, answer, fixes⟩

theorem respond_eq (config : ModelConfig) (answer : Except Failure String) (w : World) :
    ((respond config answer).run w).1 = .ok (responseOf answer) := by
  cases answer <;> rfl

theorem keeps_respond {I : World → Prop} [World.Aside I] (config : ModelConfig)
    (answer : Except Failure String) : Keeps I (respond config answer) := by
  cases answer with
  | error f => exact keeps_pure _
  | ok answer =>
    exact (keeps_readFixes _).bind fun _ => (World.keeps_sayDebug _ _).bind fun _ =>
      (World.keeps_showDebug _ _).bind fun _ => keeps_pure _

/-- Once the prompt is written, all that comes of a request is what comes of asking the model. -/
theorem consult_of_user {prompt : String} (h : ModelConfig.ofEnvironment w.environment = .ok config)
    (written : Prompt.user r = .ok prompt) :
    ∃ w', w'.cache = w.cache ∧ World.Asked w 0 w' ∧
      (o.consult r).run w = (o.ask config r.projectPath prompt >>= respond config).run w' := by
  refine ⟨((World.showDebug "📤 Batch request" (r.toJson o.layout)).run w).2,
    World.cache_showDebug _ _ w, World.keeps_showDebug _ _ w (World.asked_zero w), ?_⟩
  simp only [consult, StateT.run_bind, StateT.run_get, pure_bind, h, written]
  rfl

theorem consult_of_create_error {fault : ModelFault}
    (h : ModelConfig.ofEnvironment w.environment = .ok config) (legible : Prompt.Legible r)
    (unmade : ModelCache.create config w.cache = .error fault) :
    ((o.consult r).run w).1 = .ok (.failed ("Error communicating with the model: " ++ fault.message)) ∧
      World.Asked w 0 ((o.consult r).run w).2 := by
  obtain ⟨w', cache, asked, same⟩ := consult_of_user o h (Prompt.user_of_legible legible)
  rw [same, run_bind, ask_of_create_error o (cache ▸ unmade)]
  exact ⟨rfl, asked⟩

/-- What comes of a request is what comes of its last attempt, and each attempt is one question. -/
theorem consult_of_create_ok {made : Model × ModelCache}
    (h : ModelConfig.ofEnvironment w.environment = .ok config) (legible : Prompt.Legible r)
    (created : ModelCache.create config w.cache = .ok made) :
    ∃ n answer, Tried o.retry "fix-oracle" w.replies.nth (o.retry.attempts w.replies.items.length) n answer ∧
      ((o.consult r).run w).1 = .ok (responseOf answer) ∧ World.Asked w n ((o.consult r).run w).2 := by
  obtain ⟨w', cache, asked, same⟩ := consult_of_user o h (Prompt.user_of_legible legible)
  have replies : w'.replies = w.replies := asked.replies
  obtain ⟨n, tried, asked'⟩ := ask_of_create_ok (w := w') o (cache ▸ created) r.projectPath _
  rw [replies] at tried
  have since := asked.trans asked'
  rw [Nat.zero_add] at since
  rw [same, run_bind]
  exact ⟨n, _, tried, respond_eq config _ _, keeps_respond config _ _ since⟩

/-- The model can be asked about a request. -/
def Ready (r : Request) (w : World) : Prop :=
  Prompt.Legible r ∧ ∃ config made, ModelConfig.ofEnvironment w.environment = .ok config ∧
    ModelCache.create config w.cache = .ok made

/-- A request comes to `result`, and `n` questions are asked for it. -/
structure Answered (o : Oracle) (r : Request) (w : World) (result : Except Failure Response) (n : Nat) :
    Prop where
  /-- A file without a content that is named like something every object knows is the one thing that
  leaves a request without a response. -/
  fails_iff : (∃ f, result = .error f) ↔
    (∃ config, ModelConfig.ofEnvironment w.environment = .ok config) ∧
      ∃ file ∈ r.errors.files, r.contents.lookup file = none ∧ file ∈ Prompt.inheritedNames
  unasked : (∃ f, result = .error f) → n = 0
  misconfigured : ∀ fault, ModelConfig.ofEnvironment w.environment = .error fault →
    result = .ok (.failed ("Model configuration unavailable: " ++ fault.message)) ∧ n = 0
  unmade : ∀ config fault, ModelConfig.ofEnvironment w.environment = .ok config →
    Prompt.Legible r → ModelCache.create config w.cache = .error fault →
      result = .ok (.failed ("Error communicating with the model: " ++ fault.message)) ∧ n = 0
  /-- The first text that the model gives is the answer. -/
  texts : Ready r w → ∀ k text, (∀ b ∈ o.retry.allowed?, k < b) →
    (∀ i < k, Passing (w.replies.nth i)) → w.replies.nth k = .ok text →
      result = .ok ⟨.success, text, Answer.fixes text.toList⟩ ∧ n = k + 1
  /-- The first failure that may not be tried again ends the attempts. -/
  refused : Ready r w → ∀ k f, (∀ b ∈ o.retry.allowed?, k < b) →
    (∀ i < k, Passing (w.replies.nth i)) → w.replies.nth k = .error f → f.isFinal = true →
      result = .ok (.failed ("Error communicating with the model: " ++ f.message)) ∧ n = k + 1
  /-- All attempts that the policy allows have failed. -/
  exhausted : Ready r w → ∀ b ∈ o.retry.allowed?, (∀ i < b, Passing (w.replies.nth i)) →
    (∃ message, result = .ok (.failed ("Error communicating with the model: " ++ message))) ∧ n = b

section Answered

variable {result : Except Failure Response} {n : Nat}

/-- What is said of requests about which the model can be asked says nothing of other ones. -/
theorem Answered.of_not_ready (unready : ¬ Ready r w)
    (fails_iff : (∃ f, result = .error f) ↔
      (∃ config, ModelConfig.ofEnvironment w.environment = .ok config) ∧ ¬ Prompt.Legible r)
    (misconfigured : ∀ fault, ModelConfig.ofEnvironment w.environment = .error fault →
      result = .ok (.failed ("Model configuration unavailable: " ++ fault.message)))
    (unmade : ∀ config fault, ModelConfig.ofEnvironment w.environment = .ok config →
      Prompt.Legible r → ModelCache.create config w.cache = .error fault →
        result = .ok (.failed ("Error communicating with the model: " ++ fault.message))) :
    Answered o r w result 0 where
  fails_iff := by rw [fails_iff, Prompt.not_legible_iff]
  unasked _ := rfl
  misconfigured fault h := ⟨misconfigured fault h, rfl⟩
  unmade config fault h legible created := ⟨unmade config fault h legible created, rfl⟩
  texts ready := absurd ready unready
  refused ready := absurd ready unready
  exhausted ready := absurd ready unready

/-- A model that can be asked answers with what its last attempt comes to. -/
theorem Answered.of_tried (legible : Prompt.Legible r) {made : Model × ModelCache}
    (h : ModelConfig.ofEnvironment w.environment = .ok config)
    (created : ModelCache.create config w.cache = .ok made) {answer : Except Failure String}
    (tried : Tried o.retry "fix-oracle" w.replies.nth (o.retry.attempts w.replies.items.length) n answer) :
    Answered o r w (.ok (responseOf answer)) n where
  fails_iff := by
    rw [← Prompt.not_legible_iff]
    simp [legible]
  unasked failed := by
    obtain ⟨f, hf⟩ := failed
    cases hf
  misconfigured fault hfault := by
    rw [h] at hfault
    cases hfault
  unmade config' fault h' _ hfault := by
    obtain rfl := Except.ok.inj (h.symm.trans h')
    rw [created] at hfault
    cases hfault
  texts _ k text within before hk := by
    have decides : ¬ Passing (w.replies.nth k) := hk ▸ Retry.not_passing_ok text
    obtain ⟨rfl, rfl⟩ := tried.eq_of_decides (lt_attempts within before decides) before decides
    rw [hk]
    exact ⟨rfl, rfl⟩
  refused _ k f within before hk final := by
    have decides : ¬ Passing (w.replies.nth k) := hk ▸ Retry.not_passing_error final
    obtain ⟨rfl, rfl⟩ := tried.eq_of_decides (lt_attempts within before decides) before decides
    rw [hk]
    exact ⟨rfl, rfl⟩
  exhausted _ b hb passing := by
    rw [Retry.attempts, Option.mem_def.1 hb] at tried
    obtain ⟨rfl, f, rfl⟩ := tried.eq_of_passing passing
    exact ⟨⟨_, rfl⟩, rfl⟩

end Answered

/-- Every request is answered by a response, whatever the settings, the files and the answers of the
model are, unless it has a file whose content is no text. -/
theorem consult_answered (o : Oracle) (r : Request) (w : World) :
    ∃ n, World.Asked w n ((o.consult r).run w).2 ∧ Answered o r w ((o.consult r).run w).1 n := by
  cases h : ModelConfig.ofEnvironment w.environment with
  | error fault =>
    have unready : ¬ Ready r w := fun ready => by simp [Ready, h] at ready
    rw [consult_of_environment_error o r h]
    exact ⟨0, World.asked_zero w, .of_not_ready o unready (by simp [h]) (by simp [h]) (by simp [h])⟩
  | ok config =>
    by_cases legible : Prompt.Legible r
    · cases created : ModelCache.create config w.cache with
      | error fault =>
        have unready : ¬ Ready r w := fun ready => by simp [Ready, h, created] at ready
        obtain ⟨result, asked⟩ := consult_of_create_error o h legible created
        rw [result]
        refine ⟨0, asked, .of_not_ready o unready (by simp [h, legible]) (by simp [h]) ?_⟩
        intro config' fault' h' _ created'
        obtain rfl := Except.ok.inj (h.symm.trans h')
        obtain rfl := Except.error.inj (created.symm.trans created')
        rfl
      | ok made =>
        obtain ⟨n, answer, tried, result, asked⟩ := consult_of_create_ok o h legible created
        rw [result]
        exact ⟨n, asked, .of_tried o legible h created tried⟩
    · have unready : ¬ Ready r w := fun ready => legible ready.1
      rw [consult_of_not_legible o h legible]
      exact ⟨0, World.asked_zero w, .of_not_ready o unready (by simp [h, legible]) (by simp [h])
        (by simp [legible])⟩

end Oracle

namespace Inherited

/-- A request about a file named like the function that makes an object, without its content. -/
def aboutConstructor : Request :=
  ⟨⟨.ofNat 0, .ofNat 1, .ofNat 1, false⟩, [("constructor", [])], [], "/p"⟩

def world : World where
  tree := .empty
  directory := []
  environment := [("MODEL_PROVIDER", "openai"), ("MODEL_NAME", "m"), ("OPENAI_API_KEY", "k")]
  debug := false
  exits := ⟨⟨none, none, none, none⟩, []⟩
  replies := ⟨.ok "<fixes></fixes>", []⟩
  cache := .empty
  trace := []

/-- No response comes to a request about that file. -/
theorem constructor_unanswered :
    ¬ ∃ response, ((Oracle.usual.consult aboutConstructor).run world).1 = .ok response := by
  have configured : ModelConfig.ofEnvironment world.environment = .ok ⟨"openai", "m", "k", none⟩ := by
    decide +kernel
  have illegible : ¬ Prompt.Legible aboutConstructor :=
    Prompt.not_legible_iff.2 ⟨"constructor", List.mem_cons_self, rfl, by decide⟩
  rw [Oracle.consult_of_not_legible _ configured illegible]
  rintro ⟨response, h⟩
  cases h

end Inherited
end Mender
