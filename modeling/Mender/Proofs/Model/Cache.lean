import Mathlib.Data.List.Basic
import Mender.Oracle

/-! Which model the store hands out. A model is found again by one text, to which its provider, its name
and its address are joined, and different requests can be joined to the same text. The first request with
a text for which a model can be made decides what is handed out for all of them, until the store is
cleared. -/

namespace Mender

/-- What can be told of a model by using it: who makes it, its name, and its address. -/
def Model.traits (m : Model) : Maker × String × Option String := (m.maker, m.name, m.baseURL)

namespace Provider

theorem eq_name_of_ofName? {name : String} {p : Provider} (h : ofName? name = some p) : name = p.name := by
  have found := List.find?_some (p := fun p : Provider => p.name == name) h
  exact (eq_of_beq found).symm

/-- Two providers whose names start alike are the same one, or the name of one goes on where that of the
other ends. -/
theorem eq_or_of_take_name_eq {p p' : Provider} (h : p.name.toList.take 2 = p'.name.toList.take 2) :
    p = p' ∨ (p = .openai ∧ p' = .openaiCompatible) ∨ (p = .openaiCompatible ∧ p' = .openai) := by
  revert h
  cases p <;> cases p' <;> decide

theorem two_le_length_name (p : Provider) : 2 ≤ p.name.toList.length := by
  cases p <;> decide

end Provider

namespace ModelConfig

/-- What a configuration asks for: a provider, a model of it, and the place where that runs. -/
def request (c : ModelConfig) : String × String × String :=
  (lowerCase c.provider, c.modelName, c.baseURL.getD "")

/-- What a model is like that is made for the configuration, or why none is made. -/
def made (c : ModelConfig) : Except ModelFault (Maker × String × Option String) :=
  (c.construct 1).map Model.traits

theorem map_traits_construct (c : ModelConfig) (id : Nat) : (c.construct id).map Model.traits = c.made := by
  unfold made construct
  cases c.provider? with
  | none => rfl
  | some p =>
    cases p with
    | openaiCompatible => cases c.baseURL.filter (· != "") <;> rfl
    | _ => rfl

section SameKey

variable {c c' : ModelConfig}

/-- An address that is missing is as good as an empty one. -/
theorem filter_address_eq (address : Option String) :
    address.filter (· != "") = (some (address.getD "")).filter (· != "") := by
  cases address <;> rfl

theorem made_eq_of_request_eq {p : Provider} (supported : c.provider? = some p)
    (h : c'.request = c.request) : c'.made = c.made := by
  obtain ⟨provider, name, address⟩ : lowerCase c'.provider = lowerCase c.provider ∧
      c'.modelName = c.modelName ∧ c'.baseURL.getD "" = c.baseURL.getD "" := by
    simpa [request] using h
  have supported' : c'.provider? = some p := by
    rw [provider?, provider]
    exact supported
  have address : c'.baseURL.filter (· != "") = c.baseURL.filter (· != "") := by
    rw [filter_address_eq, address, ← filter_address_eq]
  simp only [made, construct, orDefault, supported, supported', address, name]
  cases p with
  | openaiCompatible => cases c.baseURL.filter (· != "") <;> rfl
  | _ => rfl

/-- A model that is made has the name that was asked for; it has an address of its own unless the provider
is one that needs none. -/
theorem of_made_eq_ok {maker : Maker} {name : String} {address : Option String}
    (h : c.made = .ok (maker, name, address)) :
    ∃ p, c.provider? = some p ∧ name = c.modelName ∧ (p = .openai → address = none) ∧
      (p = .openaiCompatible → address ≠ none) := by
  unfold made construct at h
  cases hp : c.provider? with
  | none =>
    rw [hp] at h
    cases h
  | some p =>
    rw [hp] at h
    cases p with
    | openaiCompatible =>
      cases ha : c.baseURL.filter (· != "") with
      | none =>
        simp only [ha] at h
        cases h
      | some address =>
        simp only [ha] at h
        cases h
        exact ⟨_, rfl, rfl, by simp, by simp⟩
    | _ =>
      cases h
      exact ⟨_, rfl, rfl, by simp, by simp⟩

theorem toList_cacheKey {p : Provider} (h : c.provider? = some p) :
    c.cacheKey.toList =
      p.name.toList ++ '-' :: (c.modelName.toList ++ '-' :: (c.baseURL.getD "").toList) := by
  simp [cacheKey, Provider.eq_name_of_ofName? h]

/-- Among requests that the store cannot tell apart, models are alike only for those that are the same. -/
theorem made_eq_iff_of_cacheKey_eq (same : c'.cacheKey = c.cacheKey) (ok : c'.made.isOk) :
    c'.made = c.made ↔ c'.request = c.request := by
  cases h' : c'.made with
  | error fault =>
    rw [h'] at ok
    cases ok
  | ok traits =>
    obtain ⟨maker, name, address⟩ := traits
    obtain ⟨p', hp', name', noAddress', address'⟩ := of_made_eq_ok h'
    constructor
    · intro h
      obtain ⟨p, hp, hname, noAddress, haddress⟩ := of_made_eq_ok h.symm
      have keys := congrArg String.toList same
      rw [toList_cacheKey hp, toList_cacheKey hp'] at keys
      have starts := congrArg (List.take 2) keys
      rw [List.take_append_of_le_length p.two_le_length_name,
        List.take_append_of_le_length p'.two_le_length_name] at starts
      rcases Provider.eq_or_of_take_name_eq starts with rfl | ⟨rfl, rfl⟩ | ⟨rfl, rfl⟩
      · rw [← name', ← hname] at keys
        have addresses := (List.cons.inj (List.append_cancel_left
          (List.cons.inj (List.append_cancel_left keys)).2)).2
        have providers := (Provider.eq_name_of_ofName? hp').trans (Provider.eq_name_of_ofName? hp).symm
        simp [request, providers, ← name', ← hname, String.toList_inj.1 addresses]
      · exact absurd (noAddress' rfl) (haddress rfl)
      · exact absurd (noAddress rfl) (address' rfl)
    · intro h
      rw [← h', made_eq_of_request_eq hp' h.symm]

end SameKey

end ModelConfig

inductive CacheCall where
  | create (c : ModelConfig)
  | clear

namespace CacheCall

def act : CacheCall → Act Unit
  | .create c => do let _ ← Oracle.model c
  | .clear => modify fun w => { w with cache := w.cache.clear }

/-- Takes down which configurations a model was asked for since the store was last cleared. -/
def note (asked : List ModelConfig) : CacheCall → List ModelConfig
  | .create c => asked ++ [c]
  | .clear => []

end CacheCall

theorem Oracle.run_model (c : ModelConfig) (w : World) :
    (model c).run w =
      match ModelCache.create c w.cache with
      | .error fault => (.error (.model fault), w)
      | .ok (m, cache) => (.ok m, { w with cache }) := by
  simp only [model, StateT.run_bind, StateT.run_get, pure_bind]
  cases ModelCache.create c w.cache <;> rfl

namespace ModelCache

/-- The first of these configurations that has this key, and for which a model can be made. -/
def first? (asked : List ModelConfig) (key : String) : Option ModelConfig :=
  asked.find? fun c => c.cacheKey == key && c.made.isOk

/-- The store has just the models that were made first. -/
def Holds (cache : ModelCache) (asked : List ModelConfig) : Prop :=
  ∀ key, (cache.models.lookup key).map (fun m => Except.ok m.traits) = (first? asked key).map ModelConfig.made

section Holds

variable {cache : ModelCache} {asked : List ModelConfig} {w : World}

theorem of_first?_eq_some {c : ModelConfig} {key : String} (h : first? asked key = some c) :
    c.cacheKey = key ∧ c.made.isOk = true := by
  unfold first? at h
  simpa using List.find?_some h

theorem first?_concat (asked : List ModelConfig) (c : ModelConfig) (key : String) :
    first? (asked ++ [c]) key =
      (first? asked key).or (if c.cacheKey = key ∧ c.made.isOk then some c else none) := by
  rw [first?, List.find?_append, List.find?_singleton]
  simp only [Bool.and_eq_true, beq_iff_eq]
  rfl

/-- What is handed out is the model made first, or else a new one. -/
theorem Holds.map_create (h : Holds cache asked) (c : ModelConfig) :
    (create c cache).map (fun made => made.1.traits) = ((first? asked c.cacheKey).getD c).made := by
  have found := h c.cacheKey
  unfold create
  cases hl : cache.models.lookup c.cacheKey with
  | some m =>
    rw [hl, Option.map_some] at found
    obtain ⟨c', hc', hm⟩ := Option.map_eq_some_iff.1 found.symm
    rw [hc']
    exact hm.symm
  | none =>
    rw [hl, Option.map_none] at found
    rw [Option.map_eq_none_iff.1 found.symm, Option.getD_none, ← c.map_traits_construct (cache.made + 1)]
    cases c.construct (cache.made + 1) <;> rfl

/-- One more configuration leaves the store as it is if its key is taken, or no model can be made. -/
theorem Holds.concat (h : Holds cache asked) {c : ModelConfig}
    (idle : first? asked c.cacheKey ≠ none ∨ c.made.isOk = false) : Holds cache (asked ++ [c]) := by
  intro key
  rw [h key, first?_concat]
  split
  case isTrue taken =>
    obtain ⟨rfl, ok⟩ := taken
    obtain ⟨c', hc'⟩ := Option.ne_none_iff_exists'.1 (idle.resolve_right (by simp [ok]))
    rw [hc', Option.some_or]
  case isFalse => rw [Option.or_none]

theorem Holds.create {c : ModelConfig} {made : Model × ModelCache} (h : Holds cache asked)
    (created : create c cache = .ok made) : Holds made.2 (asked ++ [c]) := by
  have found := h c.cacheKey
  unfold ModelCache.create at created
  cases hl : cache.models.lookup c.cacheKey with
  | some m =>
    rw [hl] at created found
    obtain rfl := Except.ok.inj created
    refine h.concat (.inl fun none => ?_)
    rw [none] at found
    cases found
  | none =>
    rw [hl] at created found
    have like := c.map_traits_construct (cache.made + 1)
    cases hm : c.construct (cache.made + 1) with
    | error fault =>
      rw [hm] at created
      cases created
    | ok m =>
      rw [hm] at created like
      obtain rfl := Except.ok.inj created
      have ok : c.made.isOk = true := by rw [← like]; rfl
      intro key
      rw [first?_concat, List.lookup_cons]
      by_cases hk : c.cacheKey = key
      · subst hk
        rw [Option.map_eq_none_iff.1 found.symm, Option.none_or, if_pos ⟨rfl, ok⟩, beq_self_eq_true]
        exact congrArg some like
      · rw [if_neg fun taken => hk taken.1, Option.or_none, beq_false_of_ne (Ne.symm hk)]
        exact h key

theorem Holds.step (h : Holds w.cache asked) (call : CacheCall) :
    Holds (call.act.run w).2.cache (call.note asked) := by
  cases call with
  | clear => exact fun _ => rfl
  | create c =>
    change Holds ((Oracle.model c).run w).2.cache (asked ++ [c])
    rw [Oracle.run_model]
    have handed := h.map_create c
    cases created : ModelCache.create c w.cache with
    | error fault =>
      rw [created] at handed
      refine h.concat ?_
      cases hf : first? asked c.cacheKey with
      | none =>
        rw [hf] at handed
        exact .inr (by rw [← (show _ = c.made from handed)]; rfl)
      | some c' => exact .inl (by simp)
    | ok made => exact h.create created

theorem Holds.run (h : Holds w.cache asked) (calls : List CacheCall) :
    Holds ((calls.forM CacheCall.act).run w).2.cache (calls.foldl CacheCall.note asked) := by
  induction calls generalizing w asked with
  | nil => exact h
  | cons call calls ih => exact ih (h.step call)

end Holds

def after (calls : List CacheCall) (w : World) : World :=
  ((calls.forM CacheCall.act).run { w with cache := .empty }).2

def handedOut (calls : List CacheCall) (c : ModelConfig) (w : World) :
    Except Failure (Maker × String × Option String) :=
  ((Oracle.model c).run (after calls w)).1.map Model.traits

def asked (calls : List CacheCall) : List ModelConfig := calls.foldl CacheCall.note []

section HandedOut

variable {calls : List CacheCall} {c : ModelConfig} {w : World}

theorem mapError_model_inj {α : Type} {a b : Except ModelFault α} :
    a.mapError Failure.model = b.mapError Failure.model ↔ a = b := by
  cases a <;> cases b <;> simp [Except.mapError]

/-- What is handed out is what the first configuration with the same key asks for. -/
theorem handedOut_eq (calls : List CacheCall) (c : ModelConfig) (w : World) :
    handedOut calls c w = ((first? (asked calls) c.cacheKey).getD c).made.mapError .model := by
  have holds : Holds (after calls w).cache (asked calls) :=
    Holds.run (w := { w with cache := .empty }) (fun _ => rfl) calls
  rw [handedOut, Oracle.run_model, ← holds.map_create c]
  cases create c (after calls w).cache <;> rfl

structure Served (calls : List CacheCall) (c : ModelConfig) (w : World) : Prop where
  /-- It is what an empty store would hand out for the first configuration with the same key. -/
  handed : handedOut calls c w = handedOut [] ((first? (asked calls) c.cacheKey).getD c) w
  /-- It is what an empty store would hand out for this one, unless the first one asks for something else. -/
  like_new_iff : handedOut calls c w = handedOut [] c w ↔
    ∀ c', first? (asked calls) c.cacheKey = some c' → c'.request = c.request
  /-- A failure leaves everything as it was. -/
  unchanged : ∀ f, ((Oracle.model c).run (after calls w)).1 = .error f →
    ((Oracle.model c).run (after calls w)).2 = after calls w

theorem served (calls : List CacheCall) (c : ModelConfig) (w : World) : Served calls c w where
  handed := by
    have nothing (key : String) : first? (asked []) key = none := rfl
    rw [handedOut_eq, handedOut_eq, nothing, Option.getD_none]
  like_new_iff := by
    rw [handedOut_eq, handedOut_eq, mapError_model_inj]
    change ((first? (asked calls) c.cacheKey).getD c).made = c.made ↔ _
    cases hf : first? (asked calls) c.cacheKey with
    | none => simp
    | some c' =>
      obtain ⟨same, ok⟩ := of_first?_eq_some hf
      rw [Option.getD_some, ModelConfig.made_eq_iff_of_cacheKey_eq same ok]
      simp
  unchanged f h := by
    rw [Oracle.run_model] at h ⊢
    cases created : create c (after calls w).cache with
    | error fault => rfl
    | ok made =>
      rw [created] at h
      cases h

end HandedOut

end ModelCache

namespace Confused

/-! A model of one provider is named like another provider and a model of that one, so the key of both
requests is `openai-compatible-m-`. -/

def earlier : ModelConfig := ⟨"openai", "compatible-m", "k", none⟩

/-- This lacks the address that its provider cannot do without. -/
def config : ModelConfig := ⟨"openai-compatible", "m", "k", none⟩

def world : World where
  tree := .empty
  directory := []
  environment := []
  debug := false
  exits := ⟨⟨none, none, none, none⟩, []⟩
  replies := ⟨.ok "", []⟩
  cache := .empty
  trace := []

theorem handedOut_earlier :
    ModelCache.handedOut [.create earlier] config world = .ok (.openai, "compatible-m", none) := by
  decide +kernel

theorem handedOut_new : ModelCache.handedOut [] config world = .error (.model .addressMissing) := by
  decide +kernel

/-- The model of another provider is handed out for a configuration that no model can be made for. -/
theorem not_like_new :
    ModelCache.handedOut [.create earlier] config world ≠ ModelCache.handedOut [] config world := by
  rw [handedOut_earlier, handedOut_new]
  intro same
  cases same

end Confused
end Mender
