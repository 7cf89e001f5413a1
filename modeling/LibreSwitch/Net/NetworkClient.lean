import Mathlib.Tactic
import LibreSwitch.Library.ByteString
import LibreSwitch.Library.Interaction

/-!
# Reading from a network client

The `Client` of the platform as the calls made on it, and the parts that the enrollment and the
downloader have in common: the wait for data, `readLine`, and the loop that skips the headers of a
response. A read of one byte answers none for a negative result; a read into a buffer answers the
bytes read, never more than were asked for.

The wait of the source is a branch of each read loop; here it is the program `awaitData`. It ends
after the idle time, so the read loops end. The loop over the header lines has no bound in the
source: `skipHeaders` is given a number of rounds, and goes on for ever when they are used up.
-/

set_option autoImplicit false
set_option relaxedAutoImplicit false

namespace LibreSwitch.Net

open LibreSwitch.Library

/-- The calls on a `WiFiClientSecure`, and `delay`. A loop that goes on for more rounds than it was
given is a call that nothing answers. -/
inductive ClientCall
  | setCACert (ca : Bytes)
  | connect (host : Bytes) (port : UInt16)
  | print (text : Bytes)
  | available
  | connected
  | read
  | readInto (want : ℕ)
  | delay (ms : ℕ)
  | stop
  | unending

/-- What they answer. -/
abbrev ClientAns : ClientCall → Type
  | .connect _ _ => ℤ
  | .available => ℤ
  | .connected => Bool
  | .read => Option UInt8
  | .readInto want => { bytes : Bytes // bytes.length ≤ want }
  | .unending => Empty
  | _ => Unit

namespace NetworkClient

open Prog (ask)

/-- `kIdleTimeoutMs`. -/
def kIdleTimeoutMs : ℕ := 15000

/-- How a wait for data ends. -/
inductive Wait
  | ready (avail : ℕ)
  | closed
  | timedOut
  deriving DecidableEq, Repr

/-- The idle rounds of a read loop, each a number of milliseconds long. -/
def awaitData (idleMs : ℕ) : ℕ → Prog ClientCall ClientAns Wait
  | 0 => return .timedOut
  | rounds + 1 => do
    let avail ← ask ClientCall.available
    if avail ≤ 0 then
      let connected ← ask ClientCall.connected
      if !connected then
        let again ← ask ClientCall.available
        if again ≤ 0 then return .closed
        else
          ask (ClientCall.delay idleMs)
          awaitData idleMs rounds
      else
        ask (ClientCall.delay idleMs)
        awaitData idleMs rounds
    else return .ready avail.toNat

/-- The end of a line: the terminator, in the place of a carriage return if there is one. -/
def endLine (out : Bytes) (i : ℕ) : Bytes :=
  let out := out.set i 0
  if 0 < i ∧ out.getD (i - 1) 0 = 13 then out.set (i - 1) 0 else out

/-- The loop of `readLine`, with the bytes that still fit in front of the terminator. -/
def readLineLoop (out : Bytes) (i : ℕ) : ℕ → Prog ClientCall ClientAns (Bool × Bytes)
  | 0 => return (i > 0, out.set i 0)
  | room + 1 => do
    match ← awaitData 5 (kIdleTimeoutMs / 5) with
    | .closed => return (i > 0, out)
    | .timedOut => return (i > 0, out.set i 0)
    | .ready _ =>
      match ← ask ClientCall.read with
      | none => return (i > 0, out.set i 0)
      | some ch =>
        if ch = 10 then return (true, endLine out i)
        else readLineLoop (out.set i ch) (i + 1) room

/-- `readLine`: whether there was a line, and the buffer with it. -/
def readLine (out : Bytes) (cap : ℕ) : Prog ClientCall ClientAns (Bool × Bytes) :=
  readLineLoop out 0 (cap - 1)

/-- The size of the line buffers. -/
def kLineCap : ℕ := 256

/-- The loop that reads lines up to the blank one; false if there is no line any more. -/
def skipHeaders : ℕ → Bytes → Prog ClientCall ClientAns Bool
  | 0, _ => .call .unending Empty.elim
  | rounds + 1, line => do
    let (more, line) ← readLine line kLineCap
    if !more then return false
    else if line.getD 0 0 = 0 then return true
    else skipHeaders rounds line

/-- The check of the status line: the number behind the first blank is 200. -/
def statusOk (line : Bytes) : Bool :=
  match strchr 32 (cString line) with
  | none => false
  | some found => atoi found.tail = 200

/-- The part of a response before its body: whether the status is 200 and the headers ended. -/
def readHead (rounds : ℕ) (line : Bytes) : Prog ClientCall ClientAns Bool := do
  let (more, line) ← readLine line kLineCap
  if !more then return false
  else if !statusOk line then return false
  else skipHeaders rounds line

/-! ### The bytes of a run -/

/-- The bytes that an event put into a buffer. -/
def bytesRead : Prog.Event ClientCall ClientAns → Bytes
  | ⟨.readInto _, read⟩ => read.val
  | _ => []

/-- The bytes that a run put into buffers. -/
def received (trace : List (Prog.Event ClientCall ClientAns)) : Bytes := trace.flatMap bytesRead

@[simp] theorem received_nil : received [] = [] := rfl

@[simp] theorem received_cons (event : Prog.Event ClientCall ClientAns)
    (trace : List (Prog.Event ClientCall ClientAns)) :
    received (event :: trace) = bytesRead event ++ received trace := rfl

@[simp] theorem received_append (first second : List (Prog.Event ClientCall ClientAns)) :
    received (first ++ second) = received first ++ received second := List.flatMap_append

/-! ### The head of a response is read byte by byte -/

/-- A call that does not read into a buffer. -/
def Bytewise (request : ClientCall) : Prop := ∀ want, request ≠ .readInto want

theorem received_of_bytewise {trace : List (Prog.Event ClientCall ClientAns)}
    (hbytewise : ∀ event ∈ trace, Bytewise event.request) : received trace = [] := by
  refine List.flatMap_eq_nil_iff.mpr fun event hevent ↦ ?_
  have hnot := hbytewise event hevent
  obtain ⟨request, answer⟩ := event
  cases request with
  | readInto want => exact absurd rfl (hnot want)
  | _ => rfl

/-- A program that reads byte by byte puts nothing into a buffer. -/
theorem received_of_asksOnly {α : Type} {program : Prog ClientCall ClientAns α}
    (hprogram : program.AsksOnly Bytewise) {trace : List (Prog.Event ClientCall ClientAns)}
    {result : α} (hruns : program.Runs trace result) : received trace = [] :=
  received_of_bytewise (hprogram.of_runs hruns)

/-! ### What the head of a response asks of the connection -/

/-- The calls that listen to a connection, byte by byte. -/
inductive Listens : ClientCall → Prop
  | available : Listens .available
  | connected : Listens .connected
  | read : Listens .read
  | delay (ms : ℕ) : Listens (.delay ms)
  | unending : Listens .unending

theorem bytewise_of_listens {request : ClientCall} (hlistens : Listens request) :
    Bytewise request := by
  cases hlistens <;> exact nofun

theorem asksOnly_awaitData (idleMs rounds : ℕ) : (awaitData idleMs rounds).AsksOnly Listens := by
  induction rounds with
  | zero => trivial
  | succ rounds ih =>
    unfold awaitData
    simp only [Prog.ask_bind, Prog.pure_eq]
    refine Prog.asksOnly_call.mpr ⟨.available, fun avail ↦ ?_⟩
    split_ifs
    · refine Prog.asksOnly_call.mpr ⟨.connected, fun connected ↦ ?_⟩
      split_ifs
      · refine Prog.asksOnly_call.mpr ⟨.available, fun again ↦ ?_⟩
        split_ifs
        · trivial
        · exact ⟨.delay _, fun _ ↦ ih⟩
      · exact ⟨.delay _, fun _ ↦ ih⟩
    · trivial

theorem asksOnly_readLineLoop (out : Bytes) (i room : ℕ) :
    (readLineLoop out i room).AsksOnly Listens := by
  induction room generalizing out i with
  | zero => trivial
  | succ room ih =>
    refine Prog.asksOnly_bind (asksOnly_awaitData _ _) fun wait ↦ ?_
    cases wait with
    | closed => trivial
    | timedOut => trivial
    | ready avail =>
      simp only [Prog.ask_bind, Prog.pure_eq]
      refine Prog.asksOnly_call.mpr ⟨.read, fun read ↦ ?_⟩
      cases read with
      | none => trivial
      | some ch =>
        simp only
        split_ifs
        · trivial
        · exact ih _ _

theorem asksOnly_skipHeaders (rounds : ℕ) (line : Bytes) :
    (skipHeaders rounds line).AsksOnly Listens := by
  induction rounds generalizing line with
  | zero => exact ⟨.unending, nofun⟩
  | succ rounds ih =>
    refine Prog.asksOnly_bind (asksOnly_readLineLoop _ _ _) fun read ↦ ?_
    simp only
    split_ifs
    · trivial
    · trivial
    · exact ih _

theorem asksOnly_readHead (rounds : ℕ) (line : Bytes) :
    (readHead rounds line).AsksOnly Listens := by
  refine Prog.asksOnly_bind (asksOnly_readLineLoop _ _ _) fun read ↦ ?_
  simp only
  split_ifs
  · trivial
  · trivial
  · exact asksOnly_skipHeaders _ _

/-- A program that only listens puts nothing into a buffer. -/
theorem received_of_listens {α : Type} {program : Prog ClientCall ClientAns α}
    (hprogram : program.AsksOnly Listens) {trace : List (Prog.Event ClientCall ClientAns)}
    {result : α} (hruns : program.Runs trace result) : received trace = [] :=
  received_of_asksOnly (hprogram.mono fun _ ↦ bytewise_of_listens) hruns

end NetworkClient

end LibreSwitch.Net
