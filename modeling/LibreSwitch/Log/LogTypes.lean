import Mathlib.Tactic
import LibreSwitch.Library.ByteString

/-!
# Log records

The log events and their records of `log/log_types.h`. A record is twenty bytes, packed and
little-endian: both clocks, the session it belongs to, the event with two arguments, a severity and
two flags. `decode_encode` says that the codec gives a record back.
-/

set_option autoImplicit false
set_option relaxedAutoImplicit false

namespace LibreSwitch.Log

open LibreSwitch.Library

inductive Severity
  | debug
  | info
  | warn
  | error
  | critical
  deriving DecidableEq, Repr

/-- The value of the enumerator. -/
def Severity.raw : Severity → UInt8
  | debug => 0
  | info => 1
  | warn => 2
  | error => 3
  | critical => 4

/-- The event codes; the first digit of the value is the category. -/
inductive EventCode
  | boot
  | resetReason
  | factoryReset
  | profileLoaded
  | wifiUp
  | wifiDown
  | mqttConnected
  | mqttDisconnected
  | ntpSync
  | certRefresh
  | certExpiryWarning
  | relayOn
  | relayOff
  | touchEvent
  | bootRestore
  | otaStart
  | otaVerifyOk
  | otaVerifyFail
  | otaCommit
  | otaRollback
  | otaConfirmed
  | provisioned
  | enrolled
  | authFail
  | unauthorizedCmd
  | heapLow
  | watchdogBite
  | taskStall
  | flashError
  | tlsError
  deriving DecidableEq, Repr

/-- The value of the enumerator. -/
def EventCode.raw : EventCode → UInt16
  | boot => 0x0001
  | resetReason => 0x0002
  | factoryReset => 0x0003
  | profileLoaded => 0x0004
  | wifiUp => 0x1001
  | wifiDown => 0x1002
  | mqttConnected => 0x1003
  | mqttDisconnected => 0x1004
  | ntpSync => 0x1005
  | certRefresh => 0x1006
  | certExpiryWarning => 0x1007
  | relayOn => 0x2001
  | relayOff => 0x2002
  | touchEvent => 0x2003
  | bootRestore => 0x2004
  | otaStart => 0x3001
  | otaVerifyOk => 0x3002
  | otaVerifyFail => 0x3003
  | otaCommit => 0x3004
  | otaRollback => 0x3005
  | otaConfirmed => 0x3006
  | provisioned => 0x4001
  | enrolled => 0x4002
  | authFail => 0x4003
  | unauthorizedCmd => 0x4004
  | heapLow => 0x5001
  | watchdogBite => 0x5002
  | taskStall => 0x5003
  | flashError => 0x5004
  | tlsError => 0x5005

/-- `kFlagClockValid`: the UTC of the record is real. -/
def kFlagClockValid : UInt8 := 0x01

/-- `kFlagAnchor`: the record is an NTP anchor. -/
def kFlagAnchor : UInt8 := 0x02

/-- `LogRecord`. -/
structure LogRecord where
  tsUtc : UInt32 := 0
  uptimeMs : UInt32 := 0
  bootId : UInt16 := 0
  code : UInt16 := 0
  arg1 : UInt16 := 0
  arg2 : UInt16 := 0
  severity : UInt8 := 0
  flags : UInt8 := 0
  pad0 : UInt8 := 0
  pad1 : UInt8 := 0
  deriving DecidableEq, Repr

namespace LogRecord

/-- `sizeof(LogRecord)`. -/
def size : ℕ := 20

/-- A flag bit is set. -/
def HasFlag (record : LogRecord) (flag : UInt8) : Prop := record.flags &&& flag ≠ 0

instance (record : LogRecord) (flag : UInt8) : Decidable (record.HasFlag flag) :=
  inferInstanceAs (Decidable (_ ≠ _))

end LogRecord

namespace LogCodec

/-- `LogCodec::encode`: the bytes of a record in memory. -/
def encode (record : LogRecord) : Bytes :=
  littleEndian 4 record.tsUtc.toNat ++ littleEndian 4 record.uptimeMs.toNat ++
    littleEndian 2 record.bootId.toNat ++ littleEndian 2 record.code.toNat ++
    littleEndian 2 record.arg1.toNat ++ littleEndian 2 record.arg2.toNat ++
    [record.severity, record.flags, record.pad0, record.pad1]

/-- The number in the bytes of a field. -/
def field (bytes : Bytes) (offset width : ℕ) : ℕ :=
  ofLittleEndian ((bytes.drop offset).take width)

/-- `LogCodec::decode`. -/
def decode (bytes : Bytes) : Option LogRecord :=
  if bytes.length ≠ LogRecord.size then none
  else some
    { tsUtc := UInt32.ofNat (field bytes 0 4)
      uptimeMs := UInt32.ofNat (field bytes 4 4)
      bootId := UInt16.ofNat (field bytes 8 2)
      code := UInt16.ofNat (field bytes 10 2)
      arg1 := UInt16.ofNat (field bytes 12 2)
      arg2 := UInt16.ofNat (field bytes 14 2)
      severity := bytes.getD 16 0
      flags := bytes.getD 17 0
      pad0 := bytes.getD 18 0
      pad1 := bytes.getD 19 0 }

@[simp] theorem length_encode (record : LogRecord) :
    (encode record).length = LogRecord.size := by
  simp only [encode, List.length_append, List.length_cons, List.length_nil, length_littleEndian]
  rfl

/-- A record is read back as it was written. -/
@[simp] theorem decode_encode (record : LogRecord) : decode (encode record) = some record := by
  have hfour (word : UInt32) : UInt32.ofNat (ofLittleEndian (littleEndian 4 word.toNat)) =
      word := by
    rw [ofLittleEndian_littleEndian word.toNat_lt, UInt32.ofNat_toNat]
  have htwo (word : UInt16) : UInt16.ofNat (ofLittleEndian (littleEndian 2 word.toNat)) = word := by
    rw [ofLittleEndian_littleEndian word.toNat_lt, UInt16.ofNat_toNat]
  have htsUtc : field (encode record) 0 4 =
      ofLittleEndian (littleEndian 4 record.tsUtc.toNat) := rfl
  have huptime : field (encode record) 4 4 =
      ofLittleEndian (littleEndian 4 record.uptimeMs.toNat) := rfl
  have hbootId : field (encode record) 8 2 =
      ofLittleEndian (littleEndian 2 record.bootId.toNat) := rfl
  have hcode : field (encode record) 10 2 =
      ofLittleEndian (littleEndian 2 record.code.toNat) := rfl
  have harg1 : field (encode record) 12 2 =
      ofLittleEndian (littleEndian 2 record.arg1.toNat) := rfl
  have harg2 : field (encode record) 14 2 =
      ofLittleEndian (littleEndian 2 record.arg2.toNat) := rfl
  unfold decode
  rw [if_neg (not_not.mpr (length_encode record)), htsUtc, huptime, hbootId, hcode, harg1, harg2]
  simp only [hfour, htwo]
  rfl

end LogCodec

end LibreSwitch.Log
