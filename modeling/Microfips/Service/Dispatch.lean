import Microfips.Data.Text
import Microfips.Session.Handler

/-!
# The service layer

`microfips-service`: requests and responses in an envelope of eight bytes and what it is followed
by, and the adapter that hands the requests of an FSP session to a handler.  The handler writes its
body into the response buffer behind the room for the envelope; an error overwrites what it wrote.
-/

namespace Microfips
namespace Service

def serviceVersion : UInt8 := 1

def serviceKindRequest : UInt8 := 1

def serviceKindResponse : UInt8 := 2

def serviceRequestHeaderLen : ℕ := 8

def serviceResponseHeaderLen : ℕ := 8

inductive ServiceMethod where
  | get
  | post
  | put
  | delete
  deriving DecidableEq

namespace ServiceMethod

def fromU8 (value : UInt8) : Option ServiceMethod :=
  if value = 1 then some get
  else if value = 2 then some post
  else if value = 3 then some put
  else if value = 4 then some delete
  else none

def asU8 : ServiceMethod → UInt8
  | get => 1
  | post => 2
  | put => 3
  | delete => 4

@[simp] theorem fromU8_asU8 (method : ServiceMethod) : fromU8 method.asU8 = some method := by
  cases method <;> rfl

end ServiceMethod

inductive ContentType where
  | binary
  | json
  | text
  deriving DecidableEq

namespace ContentType

def fromU8 (value : UInt8) : Option ContentType :=
  if value = 0 then some binary
  else if value = 1 then some json
  else if value = 2 then some text
  else none

def asU8 : ContentType → UInt8
  | binary => 0
  | json => 1
  | text => 2

@[simp] theorem fromU8_asU8 (contentType : ContentType) :
    fromU8 contentType.asU8 = some contentType := by
  cases contentType <;> rfl

end ContentType

structure ServiceStatus where
  code : UInt16
  deriving DecidableEq

structure ServiceRequest where
  method : ServiceMethod
  route : String
  payload : Bytes
  deriving DecidableEq

structure ServiceResponse where
  status : ServiceStatus
  contentType : ContentType
  body : Bytes
  deriving DecidableEq

structure ServiceReply where
  status : ServiceStatus
  contentType : ContentType
  bodyLen : ℕ
  deriving DecidableEq

inductive ServiceError where
  | bufferTooSmall
  | invalidEnvelope
  | invalidVersion
  | invalidKind
  | invalidMethod
  | invalidUtf8
  | notFound
  | methodNotAllowed
  deriving DecidableEq

namespace ServiceError

def status : ServiceError → ServiceStatus
  | bufferTooSmall => ⟨413⟩
  | invalidEnvelope => ⟨400⟩
  | invalidVersion => ⟨400⟩
  | invalidKind => ⟨400⟩
  | invalidMethod => ⟨400⟩
  | invalidUtf8 => ⟨400⟩
  | notFound => ⟨404⟩
  | methodNotAllowed => ⟨405⟩

def message : ServiceError → String
  | bufferTooSmall => "response buffer too small"
  | invalidEnvelope => "invalid service envelope"
  | invalidVersion => "unsupported service envelope version"
  | invalidKind => "unexpected service envelope kind"
  | invalidMethod => "invalid service method"
  | invalidUtf8 => "route is not valid utf-8"
  | notFound => "route not found"
  | methodNotAllowed => "method not allowed"

def longestMessage : ℕ := (Bytes.ofString invalidVersion.message).length

theorem length_message_le (e : ServiceError) :
    (Bytes.ofString e.message).length ≤ longestMessage := by
  cases e <;> decide +kernel

def response (e : ServiceError) : ServiceResponse where
  status := e.status
  contentType := .text
  body := Bytes.ofString e.message

end ServiceError

/-- `ServiceHandler`: what it does with a request and the buffer for the body, and with the context
of the peer. -/
structure ServiceHandler (H : Type) where
  handle : H → ServiceRequest → Bytes → Except ServiceError ServiceReply × Bytes × H
  onPeer : H → Session.PeerContext → H
  /-- The buffer keeps its length. -/
  length_handle : ∀ h request buffer, (handle h request buffer).2.1.length = buffer.length

section Codec

def requestHeader (method : ServiceMethod) (routeLen payloadLen : ℕ) : Bytes :=
  [serviceVersion, serviceKindRequest, method.asU8, 0] ++ Bytes.ofNat 2 routeLen ++
    Bytes.ofNat 2 payloadLen

def encodeRequest (method : ServiceMethod) (route : String) (payload out : Bytes) :
    Except ServiceError (ℕ × Bytes) :=
  let total := serviceRequestHeaderLen + (Bytes.ofString route).length + payload.length
  if out.length < total ∨ 65535 < (Bytes.ofString route).length ∨ 65535 < payload.length then
    .error .bufferTooSmall
  else
    .ok (total, requestHeader method (Bytes.ofString route).length payload.length ++
      Bytes.ofString route ++
      payload ++ out.drop total)

def decodeRequest (data : Bytes) : Except ServiceError ServiceRequest :=
  if data.length < serviceRequestHeaderLen then
    .error .invalidEnvelope
  else if data.getD 0 0 ≠ serviceVersion then
    .error .invalidVersion
  else if data.getD 1 0 ≠ serviceKindRequest then
    .error .invalidKind
  else
    match ServiceMethod.fromU8 (data.getD 2 0) with
    | none => .error .invalidMethod
    | some method =>
        let routeLen := Bytes.toNat (Bytes.slice 4 6 data)
        let payloadLen := Bytes.toNat (Bytes.slice 6 8 data)
        let total := serviceRequestHeaderLen + routeLen + payloadLen
        if data.length < total then
          .error .invalidEnvelope
        else
          match Bytes.fromUtf8 (Bytes.slice serviceRequestHeaderLen
              (serviceRequestHeaderLen + routeLen) data) with
          | none => .error .invalidUtf8
          | some route =>
              .ok { method, route,
                    payload := Bytes.slice (serviceRequestHeaderLen + routeLen) total data }

def responseHeader (status : ServiceStatus) (contentType : ContentType) (bodyLen : ℕ) : Bytes :=
  [serviceVersion, serviceKindResponse] ++ Bytes.ofNat 2 status.code.toNat ++
    [contentType.asU8, 0] ++ Bytes.ofNat 2 bodyLen

def encodeResponse (status : ServiceStatus) (contentType : ContentType) (body out : Bytes) :
    Except ServiceError (ℕ × Bytes) :=
  let total := serviceResponseHeaderLen + body.length
  if out.length < total ∨ 65535 < body.length then
    .error .bufferTooSmall
  else
    .ok (total, responseHeader status contentType body.length ++ body ++ out.drop total)

def decodeResponse (data : Bytes) : Except ServiceError ServiceResponse :=
  if data.length < serviceResponseHeaderLen then
    .error .invalidEnvelope
  else if data.getD 0 0 ≠ serviceVersion then
    .error .invalidVersion
  else if data.getD 1 0 ≠ serviceKindResponse then
    .error .invalidKind
  else
    match ContentType.fromU8 (data.getD 4 0) with
    | none => .error .invalidEnvelope
    | some contentType =>
        let total := serviceResponseHeaderLen + Bytes.toNat (Bytes.slice 6 8 data)
        if data.length < total then
          .error .invalidEnvelope
        else
          .ok { status := ⟨UInt16.ofNat (Bytes.toNat (Bytes.slice 2 4 data))⟩
                contentType
                body := Bytes.slice serviceResponseHeaderLen total data }

variable {n : ℕ} {out : Bytes}

theorem toNat_ofNat_two (h : n ≤ 65535) : Bytes.toNat (Bytes.ofNat 2 n) = n := by
  rw [Bytes.toNat_ofNat, Nat.mod_eq_of_lt (by omega)]

theorem length_responseHeader (status : ServiceStatus) (contentType : ContentType) (bodyLen : ℕ) :
    (responseHeader status contentType bodyLen).length = serviceResponseHeaderLen :=
  rfl

theorem decodeResponse_append (status : ServiceStatus) (contentType : ContentType) {rest : Bytes}
    (hn : n ≤ 65535) (hrest : n ≤ rest.length) :
    decodeResponse (responseHeader status contentType n ++ rest) =
      .ok ⟨status, contentType, rest.take n⟩ := by
  have hlen : (responseHeader status contentType n ++ rest).length = 8 + rest.length := by
    rw [List.length_append, length_responseHeader, serviceResponseHeaderLen]
  have hversion : (responseHeader status contentType n ++ rest).getD 0 0 = serviceVersion := rfl
  have hkind : (responseHeader status contentType n ++ rest).getD 1 0 = serviceKindResponse := rfl
  have htype : (responseHeader status contentType n ++ rest).getD 4 0 = contentType.asU8 := rfl
  have hstatus : Bytes.slice 2 4 (responseHeader status contentType n ++ rest) =
      Bytes.ofNat 2 status.code.toNat := rfl
  have hbody : Bytes.slice 6 8 (responseHeader status contentType n ++ rest) = Bytes.ofNat 2 n :=
    rfl
  have hcode : UInt16.ofNat status.code.toNat = status.code := UInt16.ofNat_toNat
  rw [decodeResponse, if_neg (by rw [hlen, serviceResponseHeaderLen]; omega), hversion, hkind,
    if_neg (fun hne => hne rfl), if_neg (fun hne => hne rfl), htype, ContentType.fromU8_asU8]
  dsimp only
  rw [hbody, toNat_ofNat_two hn, if_neg (by rw [hlen, serviceResponseHeaderLen]; omega), hstatus,
    toNat_ofNat_two (Nat.le_of_lt_succ status.code.toNat_lt), hcode, Bytes.slice,
    List.drop_left' (length_responseHeader _ _ _), Nat.add_sub_cancel_left]

theorem decodeResponse_take (status : ServiceStatus) (contentType : ContentType) {rest : Bytes}
    (hn : n ≤ 65535) (hrest : n ≤ rest.length) :
    decodeResponse
        ((responseHeader status contentType n ++ rest).take (serviceResponseHeaderLen + n)) =
      .ok ⟨status, contentType, rest.take n⟩ := by
  rw [← length_responseHeader status contentType n, List.take_length_add_append,
    decodeResponse_append status contentType hn (by rw [List.length_take]; omega), List.take_take,
    Nat.min_self]

theorem length_requestHeader (method : ServiceMethod) (routeLen payloadLen : ℕ) :
    (requestHeader method routeLen payloadLen).length = serviceRequestHeaderLen :=
  rfl

theorem decodeRequest_append (method : ServiceMethod) {route : String} {payload : Bytes}
    (hroute : (Bytes.ofString route).length ≤ 65535) (hpayload : payload.length ≤ 65535) :
    decodeRequest (requestHeader method (Bytes.ofString route).length payload.length ++
      (Bytes.ofString route ++ payload)) = .ok ⟨method, route, payload⟩ := by
  have hutf8 := Bytes.fromUtf8_ofString route
  generalize Bytes.ofString route = r at hroute hutf8
  generalize hdata : requestHeader method r.length payload.length ++ (r ++ payload) = data
  have hlen : data.length = 8 + (r.length + payload.length) := by
    rw [← hdata, List.length_append, length_requestHeader, List.length_append,
      serviceRequestHeaderLen]
  have hversion : data.getD 0 0 = serviceVersion := by rw [← hdata]; rfl
  have hkind : data.getD 1 0 = serviceKindRequest := by rw [← hdata]; rfl
  have hmethod : data.getD 2 0 = method.asU8 := by rw [← hdata]; rfl
  have hrouteLen : Bytes.slice 4 6 data = Bytes.ofNat 2 r.length := by rw [← hdata]; rfl
  have hpayloadLen : Bytes.slice 6 8 data = Bytes.ofNat 2 payload.length := by rw [← hdata]; rfl
  have hrest : data.drop serviceRequestHeaderLen = r ++ payload := by
    rw [← hdata]
    exact List.drop_left' (length_requestHeader _ _ _)
  rw [decodeRequest, if_neg (by rw [hlen, serviceRequestHeaderLen]; omega), hversion, hkind,
    if_neg (fun hne => hne rfl), if_neg (fun hne => hne rfl), hmethod, ServiceMethod.fromU8_asU8]
  dsimp only
  rw [hrouteLen, toNat_ofNat_two hroute, hpayloadLen, toNat_ofNat_two hpayload,
    if_neg (by rw [hlen, serviceRequestHeaderLen]; omega)]
  rw [Bytes.slice, hrest, Nat.add_sub_cancel_left, List.take_left, hutf8]
  dsimp only
  rw [Bytes.slice, ← List.drop_drop, hrest, List.drop_left, Nat.add_sub_cancel_left,
    List.take_length]

theorem decodeRequest_of_encodeRequest {method : ServiceMethod} {route : String}
    {payload out' : Bytes} (h : encodeRequest method route payload out = .ok (n, out')) :
    decodeRequest (out'.take n) = .ok ⟨method, route, payload⟩ := by
  rw [encodeRequest] at h
  split at h
  · cases h
  · next hfits =>
      rw [not_or, not_or, Nat.not_lt, Nat.not_lt, Nat.not_lt] at hfits
      cases h
      rw [List.append_assoc, List.append_assoc, ← List.append_assoc (Bytes.ofString route),
        ← List.append_assoc (requestHeader _ _ _)]
      rw [List.take_left' (by simp [length_requestHeader, Nat.add_assoc])]
      exact decodeRequest_append method hfits.2.1 hfits.2.2

theorem decodeResponse_of_encodeResponse {status : ServiceStatus} {contentType : ContentType}
    {body out' : Bytes} (h : encodeResponse status contentType body out = .ok (n, out')) :
    decodeResponse (out'.take n) = .ok ⟨status, contentType, body⟩ := by
  rw [encodeResponse] at h
  split at h
  · cases h
  · next hfits =>
      rw [not_or, Nat.not_lt, Nat.not_lt] at hfits
      cases h
      have hle : body.length ≤ (body ++ out.drop
          (serviceResponseHeaderLen + body.length)).length := by
        rw [List.length_append]
        exact Nat.le_add_right _ _
      rw [List.append_assoc, decodeResponse_take status contentType hfits.2 hle, List.take_left]

theorem encodeResponse_error (e : ServiceError)
    (h : serviceResponseHeaderLen + ServiceError.longestMessage ≤ out.length) :
    ∃ n out', encodeResponse e.status .text (Bytes.ofString e.message) out = .ok (n, out') ∧
      decodeResponse (out'.take n) = .ok e.response := by
  have hle := e.length_message_le
  have hlong : ServiceError.longestMessage ≤ 65535 := by decide +kernel
  have hencode : ∃ n out', encodeResponse e.status .text (Bytes.ofString e.message) out =
      .ok (n, out') := by
    rw [encodeResponse, if_neg (by omega)]
    exact ⟨_, _, rfl⟩
  obtain ⟨n, out', hok⟩ := hencode
  exact ⟨n, out', hok, decodeResponse_of_encodeResponse hok⟩

end Codec

section Dispatch

variable {H : Type} (handler : ServiceHandler H)

def dispatchRequest (h : H) (request response : Bytes) : Except ServiceError ℕ × Bytes × H :=
  match decodeRequest request with
  | .error e => (.error e, response, h)
  | .ok request =>
      if response.length < serviceResponseHeaderLen then
        (.error .bufferTooSmall, response, h)
      else
        let (result, body, h) := handler.handle h request (response.drop serviceResponseHeaderLen)
        let response := response.take serviceResponseHeaderLen ++ body
        match result with
        | .ok reply =>
            if body.length < reply.bodyLen ∨ 65535 < reply.bodyLen then
              (.error .bufferTooSmall, response, h)
            else
              (.ok (serviceResponseHeaderLen + reply.bodyLen),
                responseHeader reply.status reply.contentType reply.bodyLen ++ body, h)
        | .error e =>
            match encodeResponse e.status .text (Bytes.ofString e.message) response with
            | .ok (len, response) => (.ok len, response, h)
            | .error e => (.error e, response, h)

inductive FspAppResult where
  | none
  | reply (msgType : UInt8) (len : ℕ)
  | disconnect
  deriving DecidableEq

def onFspMessage (h : H) (msgType : UInt8) (payload response : Bytes) (peer : Session.PeerContext) :
    FspAppResult × Bytes × H :=
  if msgType ≠ Session.fspMsgData then
    (.none, response, h)
  else if payload = Bytes.ofString "PING" ∧ 4 ≤ response.length then
    (.reply Session.fspMsgData 4, Bytes.ofString "PONG" ++ response.drop 4, h)
  else
    match dispatchRequest handler (handler.onPeer h peer) payload response with
    | (.ok len, response, h) => (.reply Session.fspMsgData len, response, h)
    | (.error e, response, h) =>
        match encodeResponse e.status .text (Bytes.ofString e.message) response with
        | .ok (len, response) => (.reply Session.fspMsgData len, response, h)
        | .error _ => (.disconnect, response, h)

/-- What the peer is to read: the reply of the handler where the request decodes and its body fits,
and otherwise the error that occurred. -/
def outcome (h : H) (payload response : Bytes) (peer : Session.PeerContext) : ServiceResponse :=
  match decodeRequest payload with
  | .error e => e.response
  | .ok request =>
      let (result, body, _) :=
        handler.handle (handler.onPeer h peer) request (response.drop serviceResponseHeaderLen)
      match result with
      | .error e => e.response
      | .ok reply =>
          if reply.bodyLen ≤ body.length ∧ reply.bodyLen ≤ 65535 then
            ⟨reply.status, reply.contentType, body.take reply.bodyLen⟩
          else
            ServiceError.bufferTooSmall.response

/-- What the dispatch of a request comes to: a response that decodes to the outcome, or an error
that the outcome tells of, with the response buffer as long as it was. -/
theorem dispatchRequest_cases (h : H) (payload : Bytes) {response : Bytes}
    (hroom : serviceResponseHeaderLen + ServiceError.longestMessage ≤ response.length)
    (peer : Session.PeerContext) :
    (∃ len response' h',
      dispatchRequest handler (handler.onPeer h peer) payload response = (.ok len, response', h') ∧
        decodeResponse (response'.take len) = .ok (outcome handler h payload response peer)) ∨
    ∃ e response' h',
      dispatchRequest handler (handler.onPeer h peer) payload response = (.error e, response', h') ∧
        response'.length = response.length ∧
        outcome handler h payload response peer = e.response := by
  rw [dispatchRequest, outcome]
  cases decodeRequest payload with
  | error e => exact .inr ⟨e, response, _, rfl, rfl, rfl⟩
  | ok request =>
      have hlen := handler.length_handle (handler.onPeer h peer) request
        (response.drop serviceResponseHeaderLen)
      rcases hhandle : handler.handle (handler.onPeer h peer) request
        (response.drop serviceResponseHeaderLen) with ⟨result, body, h'⟩
      rw [hhandle] at hlen
      have henough : ¬ response.length < serviceResponseHeaderLen := by omega
      simp only [if_neg henough, hhandle]
      have hbuffer : (response.take serviceResponseHeaderLen ++ body).length = response.length := by
        rw [List.length_append, hlen, ← List.length_append, List.take_append_drop]
      cases result with
      | error e =>
          left
          obtain ⟨n, out, hencode, hdecode⟩ := encodeResponse_error e (hroom.trans hbuffer.ge)
          dsimp only
          rw [hencode]
          exact ⟨n, out, h', rfl, hdecode⟩
      | ok reply =>
          dsimp only
          split
          · next hlarge =>
              rw [if_neg (by omega)]
              exact .inr ⟨_, _, h', rfl, hbuffer, rfl⟩
          · next hfits =>
              rw [not_or, Nat.not_lt, Nat.not_lt] at hfits
              rw [if_pos hfits]
              exact .inl ⟨_, _, h', rfl, decodeResponse_take _ _ hfits.2 hfits.1⟩

/-- On every data message other than a ping the adapter replies, with what decodes to the handler's
status, content type and body where the request decodes and the body fits, and otherwise to the
status and the text of the error that occurred.  And a request is read back from everything that
`encode_request` writes. -/
theorem dispatch_faithful :
    (∀ {H : Type} (handler : ServiceHandler H) (h : H) (payload response : Bytes)
      (peer : Session.PeerContext), payload ≠ Bytes.ofString "PING" →
      serviceResponseHeaderLen + ServiceError.longestMessage ≤ response.length →
      ∃ len response' h', onFspMessage handler h Session.fspMsgData payload response peer =
          (.reply Session.fspMsgData len, response', h') ∧
        decodeResponse (response'.take len) = .ok (outcome handler h payload response peer)) ∧
    ∀ (method : ServiceMethod) (route : String) (payload out out' : Bytes) (n : ℕ),
      encodeRequest method route payload out = .ok (n, out') →
        decodeRequest (out'.take n) = .ok ⟨method, route, payload⟩ := by
  refine ⟨fun handler h payload response peer hping hroom => ?_,
    fun _ _ _ _ _ _ => decodeRequest_of_encodeRequest⟩
  rw [onFspMessage, if_neg (fun hne => hne rfl), if_neg (fun hp => hping hp.1)]
  rcases dispatchRequest_cases handler h payload hroom peer with
    ⟨len, response', h', hdispatch, hdecode⟩ | ⟨e, response', h', hdispatch, hlen, houtcome⟩
  · rw [hdispatch]
    exact ⟨len, response', h', rfl, hdecode⟩
  · obtain ⟨n, out, hencode, hdecode⟩ := encodeResponse_error e (hroom.trans hlen.ge)
    rw [hdispatch]
    dsimp only
    rw [hencode, houtcome]
    exact ⟨n, out, h', rfl, hdecode⟩

end Dispatch

section Routes

inductive RouteMatch where
  | exact (expected : String)
  | beginning (expected : String)
  deriving DecidableEq

def RouteMatch.matches : RouteMatch → String → Bool
  | exact expected, route => decide (route = expected)
  | beginning expected, route => (Bytes.ofString expected).isPrefixOf (Bytes.ofString route)

structure Route where
  method : ServiceMethod
  matcher : RouteMatch
  handler : ServiceRequest → Bytes → Except ServiceError ServiceReply × Bytes
  length_handler : ∀ request buffer, (handler request buffer).2.length = buffer.length

def route (methodSeen : Bool) (request : ServiceRequest) (buffer : Bytes) :
    List Route → Except ServiceError ServiceReply × Bytes
  | [] => (.error (if methodSeen then .methodNotAllowed else .notFound), buffer)
  | r :: routes =>
      if r.matcher.matches request.route then
        if r.method = request.method then r.handler request buffer
        else route true request buffer routes
      else
        route methodSeen request buffer routes

/-- The first route with the path and the method of the request handles it; where there is none, a
route with the path makes the difference between the two errors. -/
theorem route_eq (methodSeen : Bool) (request : ServiceRequest) (buffer : Bytes)
    (routes : List Route) :
    route methodSeen request buffer routes =
      (routes.find? fun r =>
          r.matcher.matches request.route && decide (r.method = request.method)).elim
        (.error (if methodSeen || routes.any (·.matcher.matches request.route)
          then .methodNotAllowed else .notFound), buffer)
        (·.handler request buffer) := by
  induction routes generalizing methodSeen with
  | nil => simp [route]
  | cons r routes ih =>
      rw [route]
      cases hpath : r.matcher.matches request.route with
      | false =>
          rw [if_neg Bool.false_ne_true, ih]
          simp [hpath]
      | true =>
          by_cases hmethod : r.method = request.method
          · simp [hpath, hmethod]
          · rw [if_pos rfl, if_neg hmethod, ih]
            simp [hpath, hmethod]

theorem length_route (methodSeen : Bool) (request : ServiceRequest) (buffer : Bytes)
    (routes : List Route) : (route methodSeen request buffer routes).2.length = buffer.length := by
  rw [route_eq]
  cases routes.find? _ with
  | none => rfl
  | some r => exact r.length_handler request buffer

def router : ServiceHandler (List Route) where
  handle routes request buffer :=
    let (result, buffer) := route false request buffer routes
    (result, buffer, routes)
  onPeer routes _ := routes
  length_handle routes request buffer := length_route false request buffer routes

def answering : Route where
  method := .get
  matcher := .exact "/x"
  handler _ buffer := (.ok ⟨⟨200⟩, .json, 1⟩, buffer.set 0 7)
  length_handler _ _ := List.length_set

def asking : Bytes :=
  requestHeader .get 2 0 ++ Bytes.ofString "/x"

theorem dispatch_faithful_router :
    let peer : Session.PeerContext := ⟨Block.replicate 32 0, none⟩
    ∃ len response h, onFspMessage router [answering] Session.fspMsgData asking
        (List.replicate 64 0) peer = (.reply Session.fspMsgData len, response, h) ∧
      decodeResponse (response.take len) = .ok ⟨⟨200⟩, .json, [7]⟩ := by
  intro peer
  have houtcome : outcome router [answering] asking (List.replicate 64 0) peer =
      ⟨⟨200⟩, .json, [7]⟩ := by decide +kernel
  rw [← houtcome]
  exact dispatch_faithful.1 router [answering] asking (List.replicate 64 0) peer
    (by decide +kernel) (by decide +kernel)

end Routes

end Service
end Microfips
