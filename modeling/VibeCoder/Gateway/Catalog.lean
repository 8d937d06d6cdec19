/-
  The model catalog of the gateway adapter (`catalog.rs`), and what later stages make of its entries.

  1. **The catalog** — `listed_of_models`: the entries of a catalog that is handed on have bounded ids
     and providers, none of them the combo alias, and no id twice.
  2. **The consumers** — the route index and the route targets check the same bounds
     (`catalog_routes`).  The agent adapter has a smaller bound for providers
     (`validateModelRef_iff`), and a chat request wants graphic characters (`request_model_iff`).
  3. **Together** — `listed_models_accepted`.
-/
import VibeCoder.Gateway.ChatRequest

namespace VibeCoder.Gateway.Catalog

open Chat (gatewayError refuseIf ifSome boundedText refuseIf_iff ifSome_iff boundedText_iff asciiGraphic)

/-! ## The response -/

def maxCatalogEntries : Nat := 20000
def maxModelIdBytes : Nat := 512
def maxDisplayNameBytes : Nat := 512
def maxProviderBytes : Nat := 256
def maxTypeBytes : Nat := 64
def maxEndpointsPerModel : Nat := 32
def maxEndpointNameBytes : Nat := 64

/-- `RawGatewayResponse`. -/
structure RawGatewayResponse where
  status : Nat
  contentType : Option String
  body : List UInt8

/-- `CatalogEntry`. -/
structure CatalogEntry where
  id : String
  object : Option String
  ownedBy : Option String
  name : Option String
  modelType : Option String
  supportedEndpoints : Option (List String)

/-- `CatalogEnvelope`. -/
structure CatalogEnvelope where
  object : String
  data : List CatalogEntry

/-- `GatewayHealthStatus`. -/
inductive GatewayHealthStatus where
  | ready
  | authenticationRequired
  | authenticationRejected
  | accessDenied
  | noUsableModels
  | rateLimited
  | endpointNotFound
  | invalidResponse
  | unavailable
  deriving DecidableEq, Repr

/-- `CatalogInterpretation`. -/
inductive CatalogInterpretation where
  | models (models : List ModelRef)
  | notReady (status : GatewayHealthStatus) (code : String)
  deriving DecidableEq, Repr

/-! ## Entries -/

/-- `validate_bounded_text`. -/
def validateBoundedText (value : String) (maxBytes : Nat) (code : String) : Result Unit :=
  boundedText hasControl value maxBytes code

/-- The loop of `validate_catalog_classification` over the endpoints. -/
def validateEndpoints : List String → Result Unit
  | [] => .ok ()
  | endpoint :: rest => do
    validateBoundedText endpoint maxEndpointNameBytes "invalid_model_endpoint"
    validateEndpoints rest

/-- `validate_catalog_classification`. -/
def validateCatalogClassification (entry : CatalogEntry) : Result Unit := do
  ifSome (validateBoundedText · maxTypeBytes "invalid_model_type") entry.modelType
  match entry.supportedEndpoints with
  | some endpoints =>
    refuseIf (endpoints.length > maxEndpointsPerModel) "too_many_model_endpoints"
    validateEndpoints endpoints
  | none => pure ()

/-- `validate_usable_catalog_entry`. -/
def validateUsableCatalogEntry (entry : CatalogEntry) : Result Unit := do
  validateBoundedText entry.id maxModelIdBytes "invalid_model_id"
  ifSome (fun object => refuseIf (object ≠ "model") "invalid_model_object") entry.object
  ifSome (validateBoundedText · maxProviderBytes "invalid_model_provider") entry.ownedBy
  ifSome (validateBoundedText · maxDisplayNameBytes "invalid_model_name") entry.name

/-- The types that can chat. -/
def chatType : Option String → Bool
  | none => true
  | some modelType => modelType == "" || modelType == "chat"

/-- `is_usable_chat_entry`. -/
def isUsableChatEntry (entry : CatalogEntry) : Result Bool :=
  if entry.ownedBy = some "combo" then .ok false
  else
    match entry.supportedEndpoints with
    | some endpoints => do
      refuseIf (¬ endpoints.Nodup) "duplicate_model_endpoint"
      if endpoints.any (fun endpoint => endpoint == "chat" || endpoint == "responses") then
        pure true
      else if endpoints ≠ [] then pure false
      else pure (chatType entry.modelType)
    | none => .ok (chatType entry.modelType)

/-- What an entry is handed on as. -/
def CatalogEntry.model (entry : CatalogEntry) : ModelRef :=
  { id := entry.id, displayName := entry.name, provider := entry.ownedBy }

/-- The loop of `parse_catalog` over the entries: the ids seen so far. -/
def parseEntries (seen : List String) : List CatalogEntry → Result (List ModelRef)
  | [] => .ok []
  | entry :: rest => do
    validateCatalogClassification entry
    let usable ← isUsableChatEntry entry
    if usable then
      validateUsableCatalogEntry entry
      refuseIf (entry.id ∈ seen) "duplicate_usable_model_id"
      let output ← parseEntries (entry.id :: seen) rest
      pure (entry.model :: output)
    else parseEntries seen rest

section

variable (fromSlice : List UInt8 → Option CatalogEnvelope)

/-- `parse_catalog`, over the JSON reader. -/
def parseCatalog (body : List UInt8) : Result (List ModelRef) :=
  match fromSlice body with
  | none => .error (gatewayError "invalid_models_json")
  | some envelope => do
    refuseIf (envelope.object ≠ "list") "invalid_models_envelope"
    refuseIf (envelope.data.length > maxCatalogEntries) "too_many_models"
    parseEntries [] envelope.data

/-- `is_json_content_type`. -/
def isJsonContentType : Option String → Bool
  | none => false
  | some value =>
    let mediaType := (trimChars (value.toList.takeWhile (· != ';'))).map Char.toLower
    mediaType == "application/json".toList ||
      ("application/".toList.isPrefixOf mediaType &&
        "+json".toList.isSuffixOf (mediaType.drop "application/".toList.length))

/-- `interpret_catalog_response`. -/
def interpretCatalogResponse (response : RawGatewayResponse) (anonymous : Bool) :
    Result CatalogInterpretation :=
  if response.status = 200 then
    if !isJsonContentType response.contentType then
      .ok (.notReady .invalidResponse "invalid_models_content_type")
    else if response.body.isEmpty then .ok (.notReady .invalidResponse "empty_models_response")
    else do
      let models ← parseCatalog fromSlice response.body
      if models.isEmpty then pure (.notReady .noUsableModels "no_usable_chat_models")
      else pure (.models models)
  else if response.status = 401 then
    if anonymous then .ok (.notReady .authenticationRequired "authentication_required")
    else .ok (.notReady .authenticationRejected "authentication_rejected")
  else if response.status = 403 then .ok (.notReady .accessDenied "catalog_access_denied")
  else if response.status = 404 then .ok (.notReady .endpointNotFound "models_endpoint_not_found")
  else if response.status = 429 then .ok (.notReady .rateLimited "catalog_rate_limited")
  else if 500 ≤ response.status ∧ response.status ≤ 599 then
    .ok (.notReady .unavailable "gateway_server_error")
  else .ok (.notReady .invalidResponse "unexpected_models_status")

end

/-! ## What is handed on -/

theorem validateBoundedText_iff {value : String} {maxBytes : Nat} {code : String} :
    validateBoundedText value maxBytes code = .ok () ↔ BoundedIdentity maxBytes value := by
  rw [validateBoundedText, boundedText_iff]
  constructor
  · rintro ⟨hne, hlen, htrim, hcontrol⟩
    exact ⟨hne, hlen, htrim, hcontrol⟩
  · rintro ⟨hne, hlen, htrim, hcontrol⟩
    exact ⟨hne, hlen, htrim, hcontrol⟩

theorem isUsableChatEntry_combo {entry : CatalogEntry} (h : isUsableChatEntry entry = .ok true) :
    entry.ownedBy ≠ some "combo" := by
  intro hcombo
  rw [isUsableChatEntry, if_pos hcombo] at h
  cases h

theorem validateUsableCatalogEntry_ok {entry : CatalogEntry}
    (h : validateUsableCatalogEntry entry = .ok ()) : entry.model.Valid := by
  rw [validateUsableCatalogEntry, Result.check_eq_ok, Result.check_eq_ok, Result.check_eq_ok,
    validateBoundedText_iff, ifSome_iff, ifSome_iff, ifSome_iff] at h
  obtain ⟨hid, -, hprovider, -⟩ := h
  exact ⟨hid, fun provider hmem => validateBoundedText_iff.mp (hprovider provider hmem)⟩

/-- Models as the adapter hands them on. -/
structure Listed (models : List ModelRef) : Prop where
  valid : ValidCatalog models
  exact : ∀ model ∈ models, model.provider ≠ some "combo"

/-- The loop hands on entries whose ids it has not seen. -/
theorem parseEntries_ok {entries : List CatalogEntry} : ∀ {seen : List String}
    {models : List ModelRef}, parseEntries seen entries = .ok models →
      Listed models ∧ ∀ model ∈ models, model.id ∉ seen := by
  induction entries with
  | nil =>
    rintro seen models ⟨⟩
    exact ⟨⟨⟨(fun _ hmem => by cases hmem), List.nodup_nil⟩, (fun _ hmem => by cases hmem)⟩,
      (fun _ hmem => by cases hmem)⟩
  | cons entry rest ih =>
    intro seen models h
    rw [parseEntries, Result.check_eq_ok, Result.bind_eq_ok] at h
    obtain ⟨-, usable, husable, h⟩ := h
    cases usable with
    | false => exact ih h
    | true =>
      rw [if_pos rfl, Result.check_eq_ok, Result.check_eq_ok, refuseIf_iff, Result.bind_eq_ok] at h
      obtain ⟨hvalid, hnew, output, hrest, hmodels⟩ := h
      cases hmodels
      obtain ⟨⟨⟨hentries, hdistinct⟩, hexact⟩, hseen⟩ := ih hrest
      refine ⟨⟨⟨fun model hmem => ?_, ?_⟩, fun model hmem => ?_⟩, fun model hmem => ?_⟩
      · rcases List.mem_cons.mp hmem with rfl | hmem
        · exact validateUsableCatalogEntry_ok hvalid
        · exact hentries model hmem
      · rw [List.map_cons, List.nodup_cons]
        refine ⟨fun hdup => ?_, hdistinct⟩
        obtain ⟨other, hother, hid⟩ := List.mem_map.mp hdup
        exact hseen other hother (hid ▸ List.mem_cons_self)
      · rcases List.mem_cons.mp hmem with rfl | hmem
        · exact isUsableChatEntry_combo husable
        · exact hexact model hmem
      · rcases List.mem_cons.mp hmem with rfl | hmem
        · exact hnew
        · exact fun hold => hseen model hmem (List.mem_cons_of_mem _ hold)

variable {fromSlice : List UInt8 → Option CatalogEnvelope} {response : RawGatewayResponse}
variable {anonymous : Bool} {models : List ModelRef}

theorem parseCatalog_ok {body : List UInt8} (h : parseCatalog fromSlice body = .ok models) :
    Listed models := by
  rw [parseCatalog] at h
  split at h
  · cases h
  · rw [Result.check_eq_ok, Result.check_eq_ok] at h
    exact (parseEntries_ok h.2.2).1

/-- **The catalog.** -/
theorem listed_of_models
    (h : interpretCatalogResponse fromSlice response anonymous = .ok (.models models)) :
    Listed models := by
  rw [interpretCatalogResponse] at h
  by_cases hstatus : response.status = 200
  · rw [if_pos hstatus] at h
    split at h
    · cases h
    · split at h
      · cases h
      · obtain ⟨parsed, hparsed, h⟩ := Result.bind_eq_ok.mp h
        split at h
        · cases h
        · cases h
          exact parseCatalog_ok hparsed
  · rw [if_neg hstatus] at h
    -- every other status is an interpretation without models
    split_ifs at h <;> cases h

/-! ## The route index and the route targets -/

/-- The configured target that names this model. -/
def targetOf (model : ModelRef) : ModelRouteTargetConfig :=
  { modelId := model.id, provider := model.provider }

/-- The index accepts the catalog, and a target that names one of its models is accepted and resolves
    to that model. -/
theorem catalog_routes (h : Listed models) :
    indexCatalog [] models = .ok () ∧ ∀ model ∈ models, validateTarget (targetOf model) = .ok () ∧
      resolveTarget models (targetOf model) = .ok model := by
  refine ⟨indexCatalog_iff.mpr h.valid, fun model hmem => ⟨?_, ?_⟩⟩
  · exact validateTarget_iff.mpr
      ⟨(h.valid.entries model hmem).id, (h.valid.entries model hmem).provider⟩
  · exact (resolveTarget_iff h.valid.distinct).mpr ⟨hmem, rfl, fun _ hprovider => hprovider⟩

end VibeCoder.Gateway.Catalog

/-! ## The agent adapter -/

namespace VibeCoder.Jcode

open Gateway.Chat (ifSome ifSome_iff)

def maxModelIdBytes : Nat := 512
def maxProviderBytes : Nat := 128

/-- `validate_component`. -/
def validateComponent (label value : String) (maxBytes : Nat) : Result Unit :=
  if value.isEmpty || !trimmed value || decide (len value > maxBytes) then
    .error (.invalidRequest (label ++ " is empty, padded, or too long"))
  else if hasControl value then .error (.invalidRequest (label ++ " contains control characters"))
  else .ok ()

/-- `validate_model_ref`. -/
def validateModelRef (model : ModelRef) : Result Unit := do
  validateComponent "model id" model.id maxModelIdBytes
  ifSome (validateComponent "model provider" · maxProviderBytes) model.provider

theorem validateComponent_iff {label value : String} {maxBytes : Nat} :
    validateComponent label value maxBytes = .ok () ↔ BoundedIdentity maxBytes value := by
  rw [validateComponent]
  split
  · rename_i hbad
    constructor
    · intro h
      cases h
    · rintro ⟨hne, hlen, htrim, -⟩
      have hlen' : ¬ len value > maxBytes := by omega
      simp [hne, hlen', htrim] at hbad
  · rename_i hgood
    simp only [Bool.or_eq_true, not_or, Bool.not_eq_true, decide_eq_false_iff_not,
      Bool.not_eq_false', String.isEmpty_eq_false_iff] at hgood
    obtain ⟨⟨hne, htrim⟩, hlen⟩ := hgood
    split
    · rename_i hcontrol
      constructor
      · intro h
        cases h
      · intro h
        rw [h.printable] at hcontrol
        cases hcontrol
    · rename_i hcontrol
      rw [Bool.not_eq_true] at hcontrol
      exact ⟨fun _ => ⟨hne, by omega, htrim, hcontrol⟩, fun _ => rfl⟩

/-- **The agent's check** bounds a provider by half of what the catalog allows. -/
theorem validateModelRef_iff {model : ModelRef} : validateModelRef model = .ok () ↔
    BoundedIdentity maxModelIdBytes model.id ∧
      ∀ provider ∈ model.provider, BoundedIdentity maxProviderBytes provider := by
  rw [validateModelRef, Result.check_eq_ok, validateComponent_iff, ifSome_iff]
  simp only [validateComponent_iff]

end VibeCoder.Jcode

/-! ## Together -/

namespace VibeCoder.Gateway.Catalog

open Chat (gatewayError asciiGraphic GraphicIdentity)

variable {fromSlice : List UInt8 → Option CatalogEnvelope} {response : RawGatewayResponse}
variable {anonymous : Bool} {models : List ModelRef} {model : ModelRef}

theorem graphic_of_bounded {maxBytes : Nat} {value : String} (h : BoundedIdentity maxBytes value) :
    GraphicIdentity maxBytes value ↔ asciiGraphic value = true :=
  ⟨fun hgraphic => hgraphic.graphic, fun hgraphic => ⟨h.nonempty, h.bounded, h.trimmed, hgraphic⟩⟩

/-- **The request's check**: a request that is accepted with one model is accepted with another of the
    catalog exactly when this one's id and provider are graphic. -/
theorem request_model_iff (h : model.Valid) {request : GatewayChatRequest}
    (hrequest : Chat.validateRequest request = .ok ()) :
    Chat.validateRequest { request with model := model } = .ok () ↔
      asciiGraphic model.id = true ∧ ∀ provider ∈ model.provider, asciiGraphic provider = true := by
  rw [Chat.validateRequest_iff] at hrequest ⊢
  constructor
  · intro haccepted
    exact ⟨haccepted.id.graphic, fun provider hmem => (haccepted.provider provider hmem).graphic⟩
  · rintro ⟨hid, hprovider⟩
    refine { hrequest with id := ?_, provider := fun provider hmem => ?_ }
    · exact (graphic_of_bounded h.id).mpr hid
    · exact (graphic_of_bounded (h.provider provider hmem)).mpr (hprovider provider hmem)

/-- **A listed model along the pipeline.**  For every response of which the adapter returns models: the
    ids are distinct and no model is a combo alias, the route index accepts them, and every model that
    names a provider is accepted as a route target and resolves to itself, is accepted by the agent if
    its provider has at most 128 bytes, and in a chat request exactly when its id and provider are
    graphic. -/
theorem listed_models_accepted
    (h : interpretCatalogResponse fromSlice response anonymous = .ok (.models models)) :
    (models.map ModelRef.id).Nodup ∧ (∀ model ∈ models, model.provider ≠ some "combo") ∧
      indexCatalog [] models = .ok () ∧
      ∀ model ∈ models, ∀ provider, model.provider = some provider →
        (validateTarget (targetOf model) = .ok () ∧
          resolveTarget models (targetOf model) = .ok model) ∧
        (len provider ≤ Jcode.maxProviderBytes → Jcode.validateModelRef model = .ok ()) ∧
        ∀ request, Chat.validateRequest request = .ok () →
          (Chat.validateRequest { request with model := model } = .ok () ↔
            asciiGraphic model.id = true ∧ asciiGraphic provider = true) := by
  have hlisted := listed_of_models h
  obtain ⟨hindex, hroutes⟩ := catalog_routes hlisted
  refine ⟨hlisted.valid.distinct, hlisted.exact, hindex, fun model hmem provider hprovider =>
    ⟨hroutes model hmem, fun hshort => ?_, fun request hrequest => ?_⟩⟩
  · obtain ⟨hid, hbounded⟩ := hlisted.valid.entries model hmem
    have hnamed := hbounded provider hprovider
    refine Jcode.validateModelRef_iff.mpr ⟨hid, ?_⟩
    rw [hprovider]
    rintro _ ⟨⟩
    exact ⟨hnamed.nonempty, hshort, hnamed.trimmed, hnamed.printable⟩
  · rw [request_model_iff (hlisted.valid.entries model hmem) hrequest, hprovider]
    simp

/-! ## A catalog with two models that are refused later -/

/-- An id with a blank in it. -/
def blankId : CatalogEntry where
  id := "acme/large v2"
  object := none
  ownedBy := some "acme"
  name := none
  modelType := none
  supportedEndpoints := none

/-- A provider of 129 bytes. -/
def longProvider : CatalogEntry :=
  { blankId with id := "acme/small", ownedBy := some (repeated 129 'a') }

/-- The text of the response with both. -/
def catalogText : String :=
  "\x7b\"object\":\"list\",\"data\":[\x7b\"id\":\"acme/large v2\",\"owned_by\":\"acme\"\x7d," ++
    "\x7b\"id\":\"acme/small\",\"owned_by\":\"" ++ repeated 129 'a' ++ "\"\x7d]\x7d"

/-- A reader that knows this text. -/
def readCatalog (body : List UInt8) : Option CatalogEnvelope :=
  if body = catalogText.toUTF8.toList then
    some { object := "list", data := [blankId, longProvider] }
  else none

def catalogResponse : RawGatewayResponse where
  status := 200
  contentType := some "application/json; charset=utf-8"
  body := catalogText.toUTF8.toList

theorem catalogResponse_models : interpretCatalogResponse readCatalog catalogResponse true =
    .ok (.models [blankId.model, longProvider.model]) := by
  have htype : isJsonContentType catalogResponse.contentType = true := by decide
  have hbody : catalogResponse.body.isEmpty = false := by decide +kernel
  have hread : readCatalog catalogResponse.body =
      some { object := "list", data := [blankId, longProvider] } := if_pos rfl
  have hparse : parseCatalog readCatalog catalogResponse.body =
      .ok [blankId.model, longProvider.model] := by
    rw [parseCatalog, hread]
    set_option maxRecDepth 20000 in decide
  rw [interpretCatalogResponse, if_pos rfl, htype, hbody, hparse]
  rfl

theorem listed_models_accepted_example :
    let models := [blankId.model, longProvider.model]
    (models.map ModelRef.id).Nodup ∧ (∀ model ∈ models, model.provider ≠ some "combo") ∧
      indexCatalog [] models = .ok () ∧
      ∀ model ∈ models, ∀ provider, model.provider = some provider →
        (validateTarget (targetOf model) = .ok () ∧
          resolveTarget models (targetOf model) = .ok model) ∧
        (len provider ≤ Jcode.maxProviderBytes → Jcode.validateModelRef model = .ok ()) ∧
        ∀ request, Chat.validateRequest request = .ok () →
          (Chat.validateRequest { request with model := model } = .ok () ↔
            asciiGraphic model.id = true ∧ asciiGraphic provider = true) :=
  listed_models_accepted catalogResponse_models

theorem listed_models_refused :
    interpretCatalogResponse readCatalog catalogResponse true =
        .ok (.models [blankId.model, longProvider.model]) ∧
      blankId.model.provider = some "acme" ∧
      Chat.validateRequest (Chat.askingRequest "hello") = .ok () ∧
      Chat.validateRequest { Chat.askingRequest "hello" with model := blankId.model } =
        .error (gatewayError "invalid_inference_model_id") ∧
      longProvider.model.provider = some (repeated 129 'a') ∧
      Jcode.validateModelRef longProvider.model =
        .error (.invalidRequest "model provider is empty, padded, or too long") :=
  ⟨catalogResponse_models, rfl, by set_option maxRecDepth 20000 in decide, by set_option maxRecDepth 20000 in decide, rfl, by set_option maxRecDepth 20000 in decide⟩

end VibeCoder.Gateway.Catalog
