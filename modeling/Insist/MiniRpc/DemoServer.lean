/-
**The demo service** (`examples/server_main.cpp`), and whether its answers fit into a frame.

Any client's request comes in a payload of at most `kMaxFrameSize` bytes, and `Session::send` drops an answer
whose encoding is longer. The answer repeats the id, the service and the method of the request; `echo` and
`upper` give the payload back, `time` a text of 24 characters. For an unknown service or method the answer has
an error text instead, in which the unknown name stands a second time.

* `length_encode_eq` — the length of an encoding, in terms of the lengths of the fields;
* `length_encode_known` — the answer of a known method is no longer than the request, or short;
* `length_encode_unknown` — the answer to anything else, whose length is that of the request's id and names
  and once more the unknown one;
* **`answered_iff_repeats_fit`** — an admissible request is answered exactly if it is for a known method, or
  its repeated names fit.
-/
import Insist.MiniRpc.Normalise

namespace Insist.MiniRpc

open Insist.Lib ProtobufWireCodec

/-! ### The service -/

/-- The bytes of a literal. -/
def ascii (text : String) : List UInt8 := text.toList.map fun char => UInt8.ofNat char.toNat

/-- What `std::ctime` answers: 25 characters. -/
structure CtimeText where
  data : List UInt8
  length_eq : data.length = 25

/-- `now_text`: the answer of `std::ctime` without its newline. -/
def nowText (ctime : CtimeText) : ByteString :=
  ⟨if ctime.data.getLast? = some 10 then ctime.data.dropLast else ctime.data, by
    have length := ctime.length_eq
    split_ifs
    · rw [List.length_dropLast]
      omega
    · omega⟩

theorem length_nowText (ctime : CtimeText) : (nowText ctime).data.length ≤ 25 := by
  have length := ctime.length_eq
  unfold nowText
  dsimp only
  split_ifs
  · rw [List.length_dropLast]
    omega
  · omega

/-- `std::toupper` of the default locale. -/
def toupper (c : UInt8) : UInt8 := if 97 ≤ c ∧ c ≤ 122 then c - 32 else c

/-- `std::transform` of a string in place. -/
def ByteString.transform (text : ByteString) (f : UInt8 → UInt8) : ByteString :=
  ⟨text.data.map f, by
    rw [List.length_map]
    exact text.size_lt⟩

/-- A literal and a string with `operator+`; `none` where it throws `std::length_error`. -/
def concat (literal : List UInt8) (text : ByteString) : Option ByteString :=
  if size_lt : (literal ++ text.data).length < 2 ^ 64 then some ⟨literal ++ text.data, size_lt⟩ else none

/-- `handle_demo_request`; `none` where it throws. -/
def handleDemoRequest (ctime : CtimeText) (request : RpcMessage) : Option RpcMessage :=
  let response : RpcMessage :=
    { id := request.id, kind := .response, service := request.service, method := request.method }
  if request.service.data ≠ ascii "DemoService" then
    (concat (ascii "unknown service: ") request.service).map fun error =>
      { response with status := 404, error := error }
  else if request.method.data = ascii "echo" then some { response with payload := request.payload }
  else if request.method.data = ascii "upper" then
    some { response with payload := request.payload.transform toupper }
  else if request.method.data = ascii "time" then some { response with payload := nowText ctime }
  else
    (concat (ascii "unknown method: ") request.method).map fun error =>
      { response with status := 404, error := error }

/-! ### How long an encoding is -/

namespace ProtobufWireCodec

/-- The length of a varint. -/
def varintLength (value : ℕ) : ℕ := Nat.log 128 value + 1

/-- The length of a varint field with a one-byte tag. -/
def varintFieldLength (value : ℕ) : ℕ := if value = 0 then 0 else 1 + varintLength value

/-- The length of a length-delimited field with a one-byte tag. -/
def lengthFieldLength (size : ℕ) : ℕ := if size = 0 then 0 else 1 + varintLength size + size

theorem length_varintPart {number : UInt32} (value : UInt64)
    (small : (tagOf number kWireVarint).toNat < 128) :
    (varintPart number value).length = varintFieldLength value.toNat := by
  have zero : value = 0 ↔ value.toNat = 0 := by rw [← UInt64.toNat_inj]; rfl
  unfold varintPart varintFieldLength
  by_cases default : value = 0
  · rw [if_neg (not_not.mpr default), if_pos (zero.mp default)]
    rfl
  · rw [if_pos default, if_neg (zero.not.mp default), varintRecord, List.length_append,
      Leb128.write_of_lt small, Leb128.length_write]
    rfl

theorem length_lengthPart {number : UInt32} (text : ByteString)
    (small : (tagOf number kWireLengthDelimited).toNat < 128) :
    (lengthPart number text).length = lengthFieldLength text.data.length := by
  have zero : text.empty = true ↔ text.data.length = 0 := by
    rw [List.length_eq_zero_iff]
    exact List.isEmpty_iff
  unfold lengthPart lengthFieldLength
  by_cases empty : text.empty = true
  · rw [if_neg (not_not.mpr empty), if_pos (zero.mp empty)]
    rfl
  · rw [if_pos empty, if_neg (zero.not.mp empty), lengthRecord, List.length_append, List.length_append,
      Leb128.write_of_lt small, Leb128.length_write, text.toNat_size, varintLength, List.length_singleton]
    omega

/-- **The length of an encoding**: the sum of its fields'. -/
theorem length_encode_eq (message : RpcMessage) :
    (encode message).length =
      varintFieldLength message.id.toNat + varintFieldLength message.kind.code.toNat +
        lengthFieldLength message.service.data.length + lengthFieldLength message.method.data.length +
        lengthFieldLength message.payload.data.length + varintFieldLength message.status.toUInt32.toNat +
        lengthFieldLength message.error.data.length := by
  rw [encode_eq]
  simp only [List.length_append]
  rw [length_varintPart _ (by decide), length_varintPart _ (by decide),
    length_varintPart _ (by decide), length_lengthPart _ (by decide),
    length_lengthPart _ (by decide), length_lengthPart _ (by decide),
    length_lengthPart _ (by decide), UInt32.toNat_toUInt64, UInt32.toNat_toUInt64]
  ring

/-- A string field is longer than its string. -/
theorem le_lengthFieldLength (size : ℕ) : size ≤ lengthFieldLength size := by
  unfold lengthFieldLength
  split_ifs <;> omega

/-- A varint field of 64 bits has at most eleven bytes. -/
theorem varintFieldLength_le (value : UInt64) : varintFieldLength value.toNat ≤ 11 := by
  have digits : Nat.log 128 value.toNat < 10 :=
    Nat.log_lt_of_lt_pow' (by decide) (lt_trans value.toNat_lt (by decide))
  unfold varintFieldLength varintLength
  split_ifs <;> omega

end ProtobufWireCodec

/-! ### The answers -/

/-- The length of the error text; `none` for the methods there are. -/
def errorLength (request : RpcMessage) : Option ℕ :=
  if request.service.data ≠ ascii "DemoService" then some (17 + request.service.data.length)
  else if request.method.data ∈ [ascii "echo", ascii "upper", ascii "time"] then none
  else some (16 + request.method.data.length)

/-- What every answer has. -/
def answerTo (request : RpcMessage) : RpcMessage :=
  { id := request.id, kind := .response, service := request.service, method := request.method }

/-- The names of the request, and once more the unknown one in the error text, fit into a frame. -/
def RepeatsFit (request : RpcMessage) : Prop :=
  ∀ size ∈ errorLength request,
    varintFieldLength request.id.toNat + 2 + lengthFieldLength request.service.data.length +
      lengthFieldLength request.method.data.length + 3 + lengthFieldLength size ≤ kMaxFrameSize.toNat

/-- The request is answered with a response of its id that `Session::send` does not drop. -/
def Answered (ctime : CtimeText) (request : RpcMessage) : Prop :=
  ∃ response, handleDemoRequest ctime request = some response ∧ response.kind = .response ∧
    response.id = request.id ∧ (encode response).length ≤ kMaxFrameSize.toNat

theorem concat_eq (literal : List UInt8) {text : ByteString}
    (short : literal.length + text.data.length < 2 ^ 64) :
    ∃ error : ByteString, error.data.length = literal.length + text.data.length ∧
      concat literal text = some error := by
  have size_lt : (literal ++ text.data).length < 2 ^ 64 := by rwa [List.length_append]
  exact ⟨⟨_, size_lt⟩, List.length_append, dif_pos size_lt⟩

/-- The answer to an unknown name. -/
theorem handleDemoRequest_unknown (ctime : CtimeText) {request : RpcMessage} {size : ℕ}
    (unknown : errorLength request = some size) (short : size < 2 ^ 64) :
    ∃ error : ByteString, error.data.length = size ∧
      handleDemoRequest ctime request = some { answerTo request with status := 404, error := error } := by
  unfold errorLength at unknown
  split_ifs at unknown with service method
  · obtain rfl := Option.some.inj unknown
    obtain ⟨error, length, made⟩ := concat_eq (ascii "unknown service: ") short
    refine ⟨error, length, ?_⟩
    rw [handleDemoRequest, if_pos service, made]
    rfl
  · obtain rfl := Option.some.inj unknown
    obtain ⟨error, length, made⟩ := concat_eq (ascii "unknown method: ") short
    refine ⟨error, length, ?_⟩
    simp only [List.mem_cons, List.not_mem_nil, or_false, not_or] at method
    rw [handleDemoRequest, if_neg service, if_neg method.1, if_neg method.2.1, if_neg method.2.2, made]
    rfl

/-- The answer of a known method: the payload is as long as the request's, or the time. -/
theorem handleDemoRequest_known (ctime : CtimeText) {request : RpcMessage}
    (known : errorLength request = none) :
    ∃ payload : ByteString,
      (payload.data.length = request.payload.data.length ∨
        payload.data.length ≤ 25 ∧ request.service.data.length = 11 ∧ request.method.data.length = 4) ∧
      handleDemoRequest ctime request = some { answerTo request with payload := payload } := by
  unfold errorLength at known
  split_ifs at known with service method
  unfold handleDemoRequest
  rw [if_neg service]
  split_ifs with echo upper time
  · exact ⟨_, Or.inl rfl, rfl⟩
  · exact ⟨_, Or.inl (List.length_map _), rfl⟩
  · refine ⟨_, Or.inr ⟨length_nowText ctime, ?_, ?_⟩, rfl⟩
    · rw [not_not.mp service]
      rfl
    · rw [time]
      rfl
  · simp [echo, upper, time] at method

/-- **The answer to an unknown name has it twice.** -/
theorem length_encode_unknown (request : RpcMessage) (error : ByteString) :
    (encode { answerTo request with status := 404, error := error }).length =
      varintFieldLength request.id.toNat + 2 + lengthFieldLength request.service.data.length +
        lengthFieldLength request.method.data.length + 3 + lengthFieldLength error.data.length := by
  have kind : varintFieldLength Kind.response.code.toNat = 2 := by decide
  have status : varintFieldLength (404 : Int32).toUInt32.toNat = 3 := by decide
  rw [length_encode_eq]
  simp only [answerTo, kind, status]
  rfl

/-- The answer of a known method. -/
theorem length_encode_known (request : RpcMessage) (payload : ByteString) :
    (encode { answerTo request with payload := payload }).length =
      varintFieldLength request.id.toNat + 2 + lengthFieldLength request.service.data.length +
        lengthFieldLength request.method.data.length + lengthFieldLength payload.data.length := by
  have kind : varintFieldLength Kind.response.code.toNat = 2 := by decide
  rw [length_encode_eq]
  simp only [answerTo, kind]
  rfl

/-- With a payload as long as the request's, it is no longer than the request. -/
theorem length_encode_known_le {request : RpcMessage} (asks : request.kind = .request) {payload : ByteString}
    (same : payload.data.length = request.payload.data.length) :
    (encode { answerTo request with payload := payload }).length ≤ (encode request).length := by
  have kind : varintFieldLength Kind.request.code.toNat = 2 := by decide
  rw [length_encode_known, length_encode_eq request, asks, kind, same]
  omega

/-- A string field of at most 25 bytes has two more. -/
theorem lengthFieldLength_le {size : ℕ} (short : size ≤ 25) : lengthFieldLength size ≤ 27 := by
  unfold lengthFieldLength varintLength
  rw [Nat.log_of_lt (by omega)]
  split_ifs <;> omega

/-- With the time, it is short. -/
theorem length_encode_time_le {request : RpcMessage} {payload : ByteString} (short : payload.data.length ≤ 25)
    (service : request.service.data.length = 11) (method : request.method.data.length = 4) :
    (encode { answerTo request with payload := payload }).length ≤ 94 := by
  have id := varintFieldLength_le request.id
  have first := lengthFieldLength_le (service.le.trans (by decide))
  have second := lengthFieldLength_le (method.le.trans (by decide))
  have third := lengthFieldLength_le short
  rw [length_encode_known]
  omega

/-! ### The requests that are answered -/

/-- A request's names are not longer than what it was decoded from. -/
theorem names_le {payload : List UInt8} {request : RpcMessage} (accepts : decode payload = some request) :
    request.service.data.length ≤ payload.length ∧ request.method.data.length ≤ payload.length := by
  have shorter := length_encode_le accepts
  rw [length_encode_eq] at shorter
  have service := le_lengthFieldLength request.service.data.length
  have method := le_lengthFieldLength request.method.data.length
  exact ⟨by omega, by omega⟩

theorem errorLength_lt {payload : List UInt8} {request : RpcMessage}
    (small : payload.length ≤ kMaxFrameSize.toNat) (accepts : decode payload = some request) {size : ℕ}
    (unknown : errorLength request = some size) : size < 2 ^ 64 := by
  have names := names_le accepts
  rw [toNat_kMaxFrameSize] at small
  unfold errorLength at unknown
  split_ifs at unknown
  · cases unknown
    omega
  · cases unknown
    omega

/-- The answer of an admissible request, and when it fits. -/
theorem handleDemoRequest_fits_iff (ctime : CtimeText) {payload : List UInt8} {request : RpcMessage}
    (small : payload.length ≤ kMaxFrameSize.toNat) (accepts : decode payload = some request)
    (asks : request.kind = .request) :
    ∃ response, handleDemoRequest ctime request = some response ∧ response.kind = .response ∧
      response.id = request.id ∧
      ((encode response).length ≤ kMaxFrameSize.toNat ↔ RepeatsFit request) := by
  unfold RepeatsFit
  cases names : errorLength request with
  | none =>
      obtain ⟨answer, fixed, handled⟩ := handleDemoRequest_known ctime names
      refine ⟨_, handled, rfl, rfl, iff_of_true ?_ (fun _ impossible => nomatch impossible)⟩
      rcases fixed with same | ⟨short, service, method⟩
      · exact (length_encode_known_le asks same).trans ((length_encode_le accepts).trans small)
      · exact (length_encode_time_le short service method).trans (by decide)
  | some size =>
      obtain ⟨error, length, handled⟩ :=
        handleDemoRequest_unknown ctime names (errorLength_lt small accepts names)
      refine ⟨_, handled, rfl, rfl, ?_⟩
      rw [length_encode_unknown, length]
      exact ⟨fun fits _ same => Option.some.inj same ▸ fits, fun fits => fits size rfl⟩

/-- `Session::send` posts a message exactly if its encoding fits. -/
theorem send_posts_iff {H : Type} (endpoint : Endpoint H) (message : RpcMessage) (handler : Option H) :
    (endpoint.send message handler).1.tasks = endpoint.tasks ++ [Task.send message handler] ↔
      (encode message).length ≤ kMaxFrameSize.toNat := by
  unfold Endpoint.send
  split_ifs with large
  · simpa using large
  · simpa using large

/-- **An admissible request is answered exactly if the names that the answer repeats fit.** For every request
that comes in a payload of at most `kMaxFrameSize` bytes: if it is for `echo`, `upper` or `time`, or its id, its
names and once more the unknown one fit into a frame, then `handle_demo_request` makes a response of its id that
`Session::send` posts; otherwise the response is dropped. -/
theorem answered_iff_repeats_fit (ctime : CtimeText) {payload : List UInt8} {request : RpcMessage}
    (small : payload.length ≤ kMaxFrameSize.toNat) (accepts : decode payload = some request)
    (asks : request.kind = .request) :
    (Answered ctime request ↔ RepeatsFit request) ∧
    ∀ {H : Type} (endpoint : Endpoint H) (handler : Option H),
      (∃ response, handleDemoRequest ctime request = some response ∧
        (endpoint.send response handler).1.tasks = endpoint.tasks ++ [Task.send response handler]) ↔
      RepeatsFit request := by
  obtain ⟨response, handled, kind, id, short⟩ := handleDemoRequest_fits_iff ctime small accepts asks
  constructor
  · simp only [Answered, handled, Option.some.injEq, exists_eq_left', kind, id, true_and]
    exact short
  · intro H endpoint handler
    simp only [handled, Option.some.injEq, exists_eq_left', send_posts_iff]
    exact short

/-- A time. -/
def newYear : CtimeText := ⟨ascii "Thu Jan  1 00:00:00 1970\n", by decide⟩

/-- A request for a method that there is not, `DemoService.add`. -/
def addRequest : RpcMessage where
  id := 7
  kind := .request
  service := ⟨ascii "DemoService", by decide⟩
  method := ⟨ascii "add", by decide⟩

theorem addRequest_answered : Answered newYear addRequest := by
  have small : (encode addRequest).length ≤ kMaxFrameSize.toNat := by
    rw [length_encode_eq]
    decide
  have accepts : decode (encode addRequest) = some addRequest := decode_encode_of_nonneg (by decide)
  have unknown : errorLength addRequest = some 19 := by decide
  refine (answered_iff_repeats_fit newYear small accepts rfl).1.mpr fun size found => ?_
  obtain rfl : 19 = size := Option.some.inj (unknown.symm.trans found)
  decide

/-- A request for a service whose name has three million bytes. -/
def longRequest : RpcMessage where
  kind := .request
  service := ⟨List.replicate 3000000 0x78, by rw [List.length_replicate]; decide⟩

/-- **Its answer is dropped**, although the request itself fits into a frame. -/
theorem longRequest_dropped :
    ∃ payload : List UInt8, payload.length ≤ kMaxFrameSize.toNat ∧ decode payload = some longRequest ∧
      longRequest.kind = .request ∧ ¬ Answered newYear longRequest := by
  have service : longRequest.service.data.length = 3000000 := List.length_replicate
  have small : (encode longRequest).length ≤ kMaxFrameSize.toNat := by
    rw [length_encode_eq, service]
    decide
  have accepts : decode (encode longRequest) = some longRequest := decode_encode_of_nonneg (by decide)
  refine ⟨_, small, accepts, rfl, ?_⟩
  have unknown : errorLength longRequest = some 3000017 := by
    rw [errorLength, if_pos, service]
    intro same
    rw [same] at service
    exact absurd service (by decide)
  obtain ⟨response, handled, kind, id, short⟩ := handleDemoRequest_fits_iff newYear small accepts rfl
  simp only [Answered, handled, Option.some.injEq, exists_eq_left', kind, id, true_and]
  intro fits
  have repeats := short.mp fits 3000017 unknown
  rw [service] at repeats
  exact absurd repeats (by decide)

end Insist.MiniRpc
