import LavsCore.Python.JsonTexts
import LavsCore.Runs

/-!
# Responses, and how the client takes them

`app/errors` gives every failure one envelope, `{"error": {"code", "message", "details"}}`; the
models of `app/models/responses` are the bodies of the others. `api/http.ts` makes a result of a
response: a value, or an `ApiError` with a code of its own.
-/

namespace LavsCore

open JsonText (Value)
open Py (Json textUnits)

/-! ## The service -/

/-- `ErrorCode` -/
inductive ErrorCode where
  | notFound | conflict | validationError | unauthorized | forbidden | domainNotAllowed
  | rateLimited | httpError | internalError
  deriving DecidableEq, Repr

def ErrorCode.value : ErrorCode → String
  | .notFound => "not_found"
  | .conflict => "conflict"
  | .validationError => "validation_error"
  | .unauthorized => "unauthorized"
  | .forbidden => "forbidden"
  | .domainNotAllowed => "domain_not_allowed"
  | .rateLimited => "rate_limited"
  | .httpError => "http_error"
  | .internalError => "internal_error"

/-- The subclasses of `DomainError`, and the class itself. -/
inductive DomainErrorClass where
  | notFoundError | conflictError | unauthorizedError | forbiddenError | domainNotAllowedError
  | rateLimitedError | domainError
  deriving DecidableEq, Repr

namespace DomainErrorClass

/-- `http_status` -/
def httpStatus : DomainErrorClass → Nat
  | notFoundError => 404
  | conflictError => 409
  | unauthorizedError => 401
  | forbiddenError => 403
  | domainNotAllowedError => 403
  | rateLimitedError => 429
  | domainError => 500

def code : DomainErrorClass → ErrorCode
  | notFoundError => .notFound
  | conflictError => .conflict
  | unauthorizedError => .unauthorized
  | forbiddenError => .forbidden
  | domainNotAllowedError => .domainNotAllowed
  | rateLimitedError => .rateLimited
  | domainError => .internalError

end DomainErrorClass

structure HttpResponse where
  status : Nat
  body : List Char

/-- `_envelope_response` -/
def envelopeResponse (status : Nat) (code : ErrorCode) (message : String)
    (details : List (String × Json)) : HttpResponse where
  status := status
  body := Py.render (.obj [("error", .obj [("code", .str code.value), ("message", .str message),
    ("details", .obj details)])])

/-- `_HTTP_STATUS_TO_CODE.get(status, ErrorCode.HTTP_ERROR)` -/
def httpStatusToCode : Nat → ErrorCode
  | 401 => .unauthorized
  | 403 => .forbidden
  | 404 => .notFound
  | 409 => .conflict
  | 429 => .rateLimited
  | _ => .httpError

/-- What the three handlers answer, and `RateLimitMiddleware` with the first of them. -/
inductive Failure where
  | domain (error : DomainErrorClass) (message : String) (details : List (String × Json))
  | validation (errors : List Json)
  | http (status : Nat) (detail : Option String)

namespace Failure

def status : Failure → Nat
  | domain error _ _ => error.httpStatus
  | validation _ => 422
  | http status _ => status

def code : Failure → ErrorCode
  | domain error _ _ => error.code
  | validation _ => .validationError
  | http status _ => httpStatusToCode status

def message : Failure → String
  | domain _ message _ => message
  | validation _ => "Request validation failed."
  | http _ detail => detail.getD "HTTP error."

def details : Failure → List (String × Json)
  | domain _ _ details => details
  | validation errors => [("errors", .arr errors)]
  | http _ _ => []

/-- `handle_domain_error`, `handle_validation_error` and `handle_http_exception` -/
def respond (failure : Failure) : HttpResponse :=
  envelopeResponse failure.status failure.code failure.message failure.details

end Failure

/-- `model_dump` of a product. -/
def ProductResponseModel.dump (m : ProductResponseModel) : Json :=
  .obj [("id", .str m.id), ("name", .str m.name), ("description", jsonOption m.description),
    ("base_version", .str m.baseVersion), ("created_at", .str m.createdAt)]

def ComponentKind.value : ComponentKind → String
  | .library => "library"
  | .service => "service"
  | .ui => "ui"
  | .cli => "cli"

/-- `model_dump` of a component. -/
def ComponentResponseModel.dump (m : ComponentResponseModel) : Json :=
  .obj [("id", .str m.id), ("product_id", .str m.productId), ("name", .str m.name),
    ("kind", .str m.kind.value)]

namespace Response

/-- The status of the route. -/
def status : Response → Nat
  | product _ | component _ | dependency _ | release _ => 201
  | version _ => 200
  | removed => 204

def dump : Response → Option Json
  | product model => some model.dump
  | component model => some model.dump
  | version model => some model.dump
  | dependency model => some model.dump
  | removed => none
  | release result => some result.release.dump

def respond (response : Response) : HttpResponse where
  status := response.status
  body := (response.dump.map Py.render).getD []

end Response

/-- The failure that a call is answered with; the other errors are not handled. -/
def ApiError.failure? : ApiError → Option Failure
  | .notFound message details =>
    some (.domain .notFoundError message (details.map fun d => (d.1, .str d.2)))
  | .conflict message details =>
    some (.domain .conflictError message (details.map fun d => (d.1, .str d.2)))
  | _ => none

/-- What the server answers for an error that nothing handles. -/
def serverError : HttpResponse := ⟨500, "Internal Server Error".toList⟩

/-- The response to a call. -/
def httpResponse : Except ApiError Response → HttpResponse
  | .ok response => response.respond
  | .error error => (error.failure?.map Failure.respond).getD serverError

/-! ## The client -/

inductive ApiErrorCode where
  | unauthorized | forbidden | domainNotAllowed | notFound | conflict | validationError
  | networkError | unknown
  deriving DecidableEq, Repr

def ApiErrorCode.value : ApiErrorCode → String
  | .unauthorized => "unauthorized"
  | .forbidden => "forbidden"
  | .domainNotAllowed => "domain_not_allowed"
  | .notFound => "not_found"
  | .conflict => "conflict"
  | .validationError => "validation_error"
  | .networkError => "network_error"
  | .unknown => "unknown"

/-- The codes that `isApiErrorCode` accepts. -/
def wireCodes : List ApiErrorCode :=
  [.unauthorized, .forbidden, .domainNotAllowed, .notFound, .conflict, .validationError]

/-- The code with this value, if `isApiErrorCode` accepts it. -/
def apiErrorCode? (value : List Nat) : Option ApiErrorCode :=
  wireCodes.find? fun code => textUnits code.value = value

/-- `STATUS_TO_CODE[status] ?? 'unknown'` -/
def statusToCode : Nat → ApiErrorCode
  | 401 => .unauthorized
  | 403 => .forbidden
  | 404 => .notFound
  | 409 => .conflict
  | 422 => .validationError
  | _ => .unknown

/-- The `ApiError` of the client. -/
structure ClientError where
  code : ApiErrorCode
  message : List Nat
  httpStatus : Nat
  details : Option Value

/-- `value ?? undefined`: `null` counts as missing. -/
def present : Option Value → Option Value
  | some .null => none
  | value => value

/-- `toApiError`, if the body is not the JSON text `null`. -/
def toApiError (response : HttpResponse) : ClientError :=
  let wire := (JsonText.parse response.body).bind (Value.property (textUnits "error"))
  let field := fun name => present (wire.bind (Value.property (textUnits name)))
  { code := (((field "code").bind Value.string?).bind apiErrorCode?).getD
      (statusToCode response.status)
    message := ((field "message").bind Value.string?).getD
      (textUnits s!"Request failed with status {response.status}")
    httpStatus := response.status
    details := field "details" }

/-- How the error of a call should arrive: the errors of the domain as they are, the others without
what is in them. -/
def ApiError.seen : ApiError → ClientError
  | .notFound message details => ⟨.notFound, textUnits message, 404,
      some (Json.obj (details.map fun d => (d.1, .str d.2))).parsed⟩
  | .conflict message details => ⟨.conflict, textUnits message, 409,
      some (Json.obj (details.map fun d => (d.1, .str d.2))).parsed⟩
  | _ => ⟨.unknown, textUnits "Request failed with status 500", 500, none⟩

/-- The result of a request: a value or none at all, or an error. -/
abbrev Result := Except ClientError (Option Value)

/-- `request`, once there is a response; `cause` is the message of the exception that
`response.json()` throws. -/
def request (cause : List Nat) (response : HttpResponse) : Result :=
  if ¬ (200 ≤ response.status ∧ response.status < 300) then .error (toApiError response)
  else if response.status = 204 then .ok none
  else
    match JsonText.parse response.body with
    | some value => .ok (some value)
    | none => .error ⟨.unknown, cause, response.status, none⟩

/-! ## What arrives -/

namespace HttpErrorsLemmas

/-- The client knows a code by its text, if it has one of that text. -/
theorem apiErrorCode?_textUnits (value : String) :
    apiErrorCode? (textUnits value) = wireCodes.find? fun code => code.value = value := by
  simp only [apiErrorCode?, Py.textUnits_injective.eq_iff]

/-- The codes of the service that the client does not have. -/
def unknownCodes : List ErrorCode := [.rateLimited, .httpError, .internalError]

theorem apiErrorCode?_value (code : ErrorCode) :
    (∃ seen, apiErrorCode? (textUnits code.value) = some seen ∧ seen.value = code.value) ∨
      code ∈ unknownCodes ∧ apiErrorCode? (textUnits code.value) = none := by
  rw [apiErrorCode?_textUnits]
  cases code with
  | notFound => exact Or.inl ⟨.notFound, rfl, rfl⟩
  | conflict => exact Or.inl ⟨.conflict, rfl, rfl⟩
  | validationError => exact Or.inl ⟨.validationError, rfl, rfl⟩
  | unauthorized => exact Or.inl ⟨.unauthorized, rfl, rfl⟩
  | forbidden => exact Or.inl ⟨.forbidden, rfl, rfl⟩
  | domainNotAllowed => exact Or.inl ⟨.domainNotAllowed, rfl, rfl⟩
  | rateLimited => exact Or.inr ⟨by decide, rfl⟩
  | httpError => exact Or.inr ⟨by decide, rfl⟩
  | internalError => exact Or.inr ⟨by decide, rfl⟩

/-- What the client makes of an envelope. -/
theorem toApiError_envelope (status : Nat) (code : ErrorCode) (message : String)
    (details : List (String × Json)) :
    toApiError (envelopeResponse status code message details) =
      { code := (apiErrorCode? (textUnits code.value)).getD (statusToCode status)
        message := textUnits message
        httpStatus := status
        details := some (Json.obj details).parsed } := by
  have hwire : (JsonText.parse (envelopeResponse status code message details).body).bind
      (Value.property (textUnits "error")) = some (Json.obj [("code", .str code.value),
        ("message", .str message), ("details", .obj details)]).parsed := by
    rw [envelopeResponse, Py.parse_render]
    exact Py.property_parsed (by simp) List.mem_cons_self
  have hfield : ∀ {name : String} {value : Json}, (name, value) ∈ [("code", Json.str code.value),
      ("message", .str message), ("details", .obj details)] →
      (Json.obj [("code", .str code.value), ("message", .str message),
        ("details", .obj details)]).parsed.property (textUnits name) = some value.parsed :=
    Py.property_parsed (by simp)
  rw [toApiError, hwire]
  simp only [Option.bind_some, hfield (.head _), hfield (.tail _ (.head _)),
    hfield (.tail _ (.tail _ (.head _)))]
  rfl

theorem domain_status (error : DomainErrorClass) :
    ¬ (200 ≤ error.httpStatus ∧ error.httpStatus < 300) := by
  cases error <;> decide

/-- The status tells the classes apart, but for two that the code does. -/
theorem domain_class_inj {error error' : DomainErrorClass}
    (hstatus : error.httpStatus = error'.httpStatus)
    (hcode : (apiErrorCode? (textUnits error.code.value)).getD (statusToCode error.httpStatus) =
      (apiErrorCode? (textUnits error'.code.value)).getD (statusToCode error'.httpStatus)) :
    error = error' := by
  rw [apiErrorCode?_textUnits, apiErrorCode?_textUnits] at hcode
  revert hstatus hcode
  cases error <;> cases error' <;> decide

variable (cause : List Nat)

theorem request_failure (failure : Failure)
    (hstatus : ¬ (200 ≤ failure.status ∧ failure.status < 300)) :
    request cause failure.respond =
      .error { code := (apiErrorCode? (textUnits failure.code.value)).getD
                 (statusToCode failure.status)
               message := textUnits failure.message
               httpStatus := failure.status
               details := some (Json.obj failure.details).parsed } := by
  have hnot : ¬ (200 ≤ failure.respond.status ∧ failure.respond.status < 300) := hstatus
  rw [request, if_pos hnot, Failure.respond, toApiError_envelope]

theorem request_response (response : Response) :
    request cause response.respond = .ok (response.dump.map Json.parsed) := by
  have hbody : ∀ model status, response.dump = some model → response.respond.status = status →
      (200 ≤ status ∧ status < 300) ∧ status ≠ 204 →
        request cause response.respond = .ok (some model.parsed) := by
    rintro model _ hdump rfl ⟨hok, hcontent⟩
    have hparse : JsonText.parse response.respond.body = some model.parsed := by
      rw [Response.respond, hdump]
      exact Py.parse_render model
    rw [request, if_neg (not_not.mpr hok), if_neg hcontent, hparse]
  cases response with
  | removed => rfl
  | product model => exact hbody model.dump 201 rfl rfl (by decide)
  | component model => exact hbody model.dump 201 rfl rfl (by decide)
  | version model => exact hbody model.dump 200 rfl rfl (by decide)
  | dependency model => exact hbody model.dump 201 rfl rfl (by decide)
  | release result => exact hbody result.release.dump 201 rfl rfl (by decide)

theorem request_error (error : ApiError) :
    request cause (httpResponse (.error error)) = .error error.seen := by
  have hserver : request cause serverError =
      .error ⟨.unknown, textUnits "Request failed with status 500", 500, none⟩ := rfl
  cases error with
  | notFound message details =>
    have hcode : apiErrorCode? (textUnits ErrorCode.notFound.value) = some .notFound :=
      (apiErrorCode?_textUnits _).trans rfl
    have hfailure := request_failure cause (.domain .notFoundError message
      (details.map fun d => (d.1, .str d.2))) (domain_status .notFoundError)
    rw [show Failure.code (.domain .notFoundError message _) = .notFound from rfl,
      hcode] at hfailure
    exact hfailure
  | conflict message details =>
    have hcode : apiErrorCode? (textUnits ErrorCode.conflict.value) = some .conflict :=
      (apiErrorCode?_textUnits _).trans rfl
    have hfailure := request_failure cause (.domain .conflictError message
      (details.map fun d => (d.1, .str d.2))) (domain_status .conflictError)
    rw [show Failure.code (.domain .conflictError message _) = .conflict from rfl,
      hcode] at hfailure
    exact hfailure
  | valueError message => exact hserver
  | validation model fields => exact hserver
  | indexError message => exact hserver
  | typeError message => exact hserver
  | assertion message => exact hserver
  | refused refusal => exact hserver

end HttpErrorsLemmas

open HttpErrorsLemmas

/-- The client takes a response as the service meant it. For a call it gets a value exactly if the
call completed, and then it is the model that the call answered; an error of the domain arrives
with its code, message and details, any other error without. A failure of any other kind arrives
with its message, its status and its details, and with its code unless the client has none of the
name; and two domain errors that arrive alike are of the same class. -/
theorem client_sees_outcome (cause : List Nat) :
    (∀ response, request cause (httpResponse (.ok response)) =
      .ok (response.dump.map Json.parsed)) ∧
    (∀ error, request cause (httpResponse (.error error)) = .error error.seen) ∧
    (∀ failure : Failure, ¬ (200 ≤ failure.status ∧ failure.status < 300) →
      ∃ seen, request cause failure.respond = .error seen ∧
        seen.message = textUnits failure.message ∧ seen.httpStatus = failure.status ∧
        seen.details = some (Json.obj failure.details).parsed ∧
        (seen.code.value = failure.code.value ∨
          failure.code ∈ unknownCodes ∧ seen.code = statusToCode failure.status)) ∧
    ∀ (error error' : DomainErrorClass) (message message' : String)
      (details details' : List (String × Json)),
      request cause (Failure.domain error message details).respond =
          request cause (Failure.domain error' message' details').respond →
        error = error' ∧ message = message' := by
  refine ⟨request_response cause, request_error cause, ?_, ?_⟩
  · intro failure hstatus
    refine ⟨_, request_failure cause failure hstatus, rfl, rfl, rfl, ?_⟩
    rcases apiErrorCode?_value failure.code with ⟨seen, hseen, hvalue⟩ | ⟨hunknown, hnone⟩
    · rw [hseen]
      exact Or.inl hvalue
    · rw [hnone]
      exact Or.inr ⟨hunknown, rfl⟩
  · intro error error' message message' details details' h
    rw [request_failure cause (.domain error message details) (domain_status error),
      request_failure cause (.domain error' message' details') (domain_status error')] at h
    obtain ⟨hcode, hmessage, hstatus, -⟩ := ClientError.mk.inj (Except.error.inj h)
    exact ⟨domain_class_inj hstatus hcode, Py.textUnits_injective hmessage⟩

end LavsCore
