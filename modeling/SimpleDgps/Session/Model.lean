import SimpleDgps.Toolkit.Framing
import SimpleDgps.Toolkit.Transition

/-!
# The Receiver Session

The object that talks to the receiver over a serial port, and the io object it
runs on.

`start` opens the port, writes two frames and arms a read and a timer. From
then on everything happens in completion handlers. The read's handler appends
what arrived, dispatches the messages in it and arms the next read; the timer's
handler writes the next poll frame and arms the timer again.

The session and the operations it has outstanding are one state, and `step` is
the environment's move. An operation first completes, which is when the kernel
fills the input buffer, and later its handler is called, unless the io object
was stopped in between. Several operations of a kind can be outstanding, and
each event says which one it is about, so nothing in the model keeps a second
read from being armed.

A call of `write_some` accepts part of what it is given or fails. Which of the
two is the environment's choice too: an event that makes the session write
carries the outcomes of the calls, and it can happen only if they are exactly
the outcomes that are asked for.

The framing of the protocol is a parameter. `Frame` holds what the session uses
of it: a step that takes frames off the input, and the two calls that put a
message into a buffer. Together they succeed, which the program asserts.

## Main definitions

* `ErrorCode`, `ErrorStatus`: Results of the libraries' calls.
* `OutMessage`: The two messages the session sends.
* `Frame`: What the session uses of the protocol's framing.
* `InputBuf`: The buffer a read is given.
* `ReadOp`, `WaitOp`: Outstanding operations.
* `Session`: The session, its port and timer, and what they did so far.
* `start`, `performRead`, `processInputData`, `sendPosPoll`, `sendMessage`,
  `configureUbxOutput`: The member functions.
* `readHandler`, `waitHandler`: The two completion handlers.
* `Event`, `step`: What can happen to a session.
* `initial`: A session that was just constructed.

## Theorems

* `InputBuf.fill_take`: What a read put into the input buffer.
-/

namespace SimpleDgps

open Toolkit

/-- The error code a call on the port or a completion reports. -/
inductive ErrorCode
  | success
  | operationAborted
  | failure (message : String)
  deriving DecidableEq, Repr

/-- The status that writing or updating a frame reports. -/
inductive ErrorStatus
  | success
  | updateRequired
  | other
  deriving DecidableEq, Repr

/-- The bits of a protocol mask that the session sets. -/
structure ProtoMask where
  ubx : Bool
  nmea : Bool
  deriving DecidableEq, Repr

/-- The messages the session sends. -/
inductive OutMessage
  | cfgPrtUsb (outProtoMask inProtoMask : ProtoMask)
  | navPosllhPoll
  deriving DecidableEq, Repr

/-- Writing a message into a buffer, and updating the buffer if the write asks
    for it. -/
def assemble (write : OutMessage → List UInt8 × ErrorStatus)
    (update : List UInt8 → List UInt8 × ErrorStatus) (msg : OutMessage) :
    List UInt8 × ErrorStatus :=
  let (buf, es) := write msg
  if es = .updateRequired then update buf else (buf, es)

/-- What the session uses of the protocol's framing. -/
structure Frame (μ : Type) where
  input : Framer UInt8 μ
  write : OutMessage → List UInt8 × ErrorStatus
  update : List UInt8 → List UInt8 × ErrorStatus
  succeeds : ∀ msg, (assemble write update msg).2 = .success

/-- The bytes of a message's frame. -/
def Frame.bytes {μ : Type} (F : Frame μ) (msg : OutMessage) : List UInt8 :=
  (assemble F.write F.update msg).1

/-- The number of bytes in `m_inputBuf`. -/
def inputBufSize : Nat := 512

/-- `m_inputBuf`, the array every read is given. -/
structure InputBuf where
  bytes : List UInt8
  size : bytes.length = inputBufSize

/-- The array after a read put its data at the front. -/
def InputBuf.fill (buf : InputBuf) (data : List UInt8) (h : data.length ≤ inputBufSize) :
    InputBuf :=
  { bytes := data ++ buf.bytes.drop data.length
    size := by rw [List.length_append, List.length_drop, buf.size]; omega }

/-- The data is at the front. -/
theorem InputBuf.fill_take (buf : InputBuf) (data : List UInt8)
    (h : data.length ≤ inputBufSize) : (buf.fill data h).bytes.take data.length = data :=
  List.take_left

/-- An `async_read_some` whose handler has not been called. -/
inductive ReadOp
  | waiting
  | completed (ec : ErrorCode) (bytesCount : Nat)
  deriving DecidableEq, Repr

/-- An `async_wait` on the poll timer whose handler has not been called. -/
inductive WaitOp
  | waiting (seconds : Nat)
  | completed (ec : ErrorCode)
  deriving DecidableEq, Repr

/-- Setting the timer's expiry cancels a wait that has not completed. -/
def WaitOp.cancel : WaitOp → WaitOp
  | .waiting _ => .completed .operationAborted
  | .completed ec => .completed ec

/-- The options `start` sets on the port. -/
inductive SerialOption
  | baudRate (rate : Nat)
  | characterSize (bits : Nat)
  | parityNone
  | stopBitsOne
  | flowControlNone
  deriving DecidableEq, Repr

/-- What a call of `write_some` did on the port. -/
inductive PortEvent
  | accepted (bytes : List UInt8)
  | failed (message : String)
  deriving DecidableEq, Repr

/-- How a call of `write_some` turns out. -/
inductive WriteSome
  | accepted (count : Nat)
  | error (message : String)
  deriving DecidableEq, Repr

/-- How a call of `start` ended. -/
inductive StartResult
  | returned (ok : Bool)
  | threw (message : String)
  deriving DecidableEq, Repr

/-- The session with its port, its timer and the io object's stop flag. The
    fields from `portLog` on record what happened so far. -/
structure Session (μ : Type) where
  device : String
  portOpen : Bool
  options : List SerialOption
  inputBuf : InputBuf
  inData : List UInt8
  reads : List ReadOp
  waits : List WaitOp
  stopped : Bool
  portLog : List PortEvent
  dispatched : List μ
  cerr : List String
  returned : List StartResult
  /-- Bytes of all reads that completed with success. -/
  delivered : List UInt8
  /-- Bytes appended to `inData` so far. -/
  received : List UInt8
  /-- Bytes erased from the front of `inData` so far. -/
  consumed : List UInt8

namespace Session

variable {μ : Type} (F : Frame μ)

/-! ### Reading -/

def performRead (s : Session μ) : Session μ := { s with reads := s.reads ++ [.waiting] }

def processInputData (s : Session μ) : Session μ :=
  if s.inData.isEmpty then s
  else
    let consumed := Framing.consumed F.input s.inData
    { s with
      dispatched := s.dispatched ++ Framing.messages F.input s.inData
      inData := s.inData.drop consumed
      consumed := s.consumed ++ s.inData.take consumed }

/-- The handler of `performRead`. -/
def readHandler (s : Session μ) (ec : ErrorCode) (bytesCount : Nat) : Session μ :=
  match ec with
  | .operationAborted => s
  | .failure message =>
    { s with cerr := s.cerr ++ ["ERROR: read failed with message: " ++ message], stopped := true }
  | .success =>
    let data := s.inputBuf.bytes.take bytesCount
    -- Only after the bytes are appended does the buffer go to the next read.
    performRead (processInputData F
      { s with inData := s.inData ++ data, received := s.received ++ data })

/-! ### Writing

A function that writes takes the outcomes of its calls of `write_some` and
returns those it did not ask for. -/

/-- The loop of `sendMessage`. -/
def writeLoop (s : Session μ) (buf : List UInt8) :
    List WriteSome → Option (Session μ × List WriteSome)
  | [] => if buf.isEmpty then some (s, []) else none
  | outcome :: rest =>
    if buf.isEmpty then some (s, outcome :: rest)
    else match outcome with
      | .error message =>
        some ({ s with
          portLog := s.portLog ++ [.failed message]
          cerr := s.cerr ++ ["ERROR: write failed with message: " ++ message]
          stopped := true }, rest)
      | .accepted count =>
        if 1 ≤ count ∧ count ≤ buf.length then
          writeLoop { s with portLog := s.portLog ++ [.accepted (buf.take count)] }
            (buf.drop count) rest
        else none

def sendMessage (s : Session μ) (msg : OutMessage) (outcomes : List WriteSome) :
    Option (Session μ × List WriteSome) :=
  let (buf, es) := assemble F.write F.update msg
  -- The assertion that no error occurred.
  if es = .success then writeLoop s buf outcomes else none

def configureUbxOutput (s : Session μ) (outcomes : List WriteSome) :
    Option (Session μ × List WriteSome) :=
  let outProtoMask := { ubx := true, nmea := false }
  let inProtoMask := { ubx := true, nmea := false }
  sendMessage F s (.cfgPrtUsb outProtoMask inProtoMask) outcomes

def sendPosPoll (s : Session μ) (outcomes : List WriteSome) :
    Option (Session μ × List WriteSome) := do
  let (s, outcomes) ← sendMessage F s .navPosllhPoll outcomes
  -- A failed write has stopped the io object and is not reported further.
  let s := { s with waits := s.waits.map WaitOp.cancel }
  some ({ s with waits := s.waits ++ [.waiting 1] }, outcomes)

/-- The handler of `sendPosPoll`. -/
def waitHandler (s : Session μ) (ec : ErrorCode) (outcomes : List WriteSome) :
    Option (Session μ × List WriteSome) :=
  if ec = .operationAborted then some (s, outcomes) else sendPosPoll F s outcomes

/-! ### Starting -/

/-- What the environment does to a call of `start`. -/
structure StartEnv where
  /-- What opening reports if the port is not open yet. -/
  opened : ErrorCode
  /-- The message of the exception that setting an option throws, if it does. -/
  setOption : SerialOption → Option String
  outcomes : List WriteSome

/-- The options in the order in which they are set. -/
def serialOptions : List SerialOption :=
  [.baudRate 115200, .characterSize 8, .parityNone, .stopBitsOne, .flowControlNone]

/-- Set options until one throws; the message of that one is returned. -/
def setOptions (setOption : SerialOption → Option String) :
    List SerialOption → Session μ → Session μ × Option String
  | [], s => (s, none)
  | option :: rest, s => match setOption option with
    | some message => (s, some message)
    | none => setOptions setOption rest { s with options := s.options ++ [option] }

/-- Opening reports an error if the port is open already. -/
def start (s : Session μ) (env : StartEnv) : Option (Session μ × List WriteSome) :=
  if s.portOpen ∨ env.opened ≠ .success then
    some ({ s with
      cerr := s.cerr ++ ["ERROR: Failed to open " ++ s.device]
      returned := s.returned ++ [.returned false] }, env.outcomes)
  else match setOptions env.setOption serialOptions { s with portOpen := true } with
    | (s, some message) =>
      -- The exception leaves the port open and nothing armed.
      some ({ s with returned := s.returned ++ [.threw message] }, env.outcomes)
    | (s, none) => do
      -- None of the three says whether it succeeded.
      let (s, outcomes) ← configureUbxOutput F s env.outcomes
      let (s, outcomes) ← sendPosPoll F s outcomes
      let s := performRead s
      some ({ s with returned := s.returned ++ [.returned true] }, outcomes)

/-! ### The environment's moves -/

/-- What can happen to a session. The number says which outstanding operation
    an event is about. -/
inductive Event
  | start (env : StartEnv)
  | readCompletes (i : Nat) (ec : ErrorCode) (data : List UInt8)
  | readHandler (i : Nat)
  | waitCompletes (i : Nat) (ec : ErrorCode)
  | waitHandler (i : Nat) (outcomes : List WriteSome)

/-- A call that wrote must have asked for exactly the outcomes that were there. -/
def finish : Option (Session μ × List WriteSome) → Option (Session μ)
  | some (s, []) => some s
  | _ => none

def step (s : Session μ) : Event → Option (Session μ)
  | .start env => finish (start F s env)
  | .readCompletes i ec data =>
    if h : data.length ≤ inputBufSize then
      match s.reads[i]? with
      | some .waiting => some { s with
          reads := s.reads.set i (.completed ec data.length)
          inputBuf := s.inputBuf.fill data h
          delivered := if ec = .success then s.delivered ++ data else s.delivered }
      | _ => none
    else none
  | .readHandler i =>
    if s.stopped then none
    else match s.reads[i]? with
      | some (.completed ec bytesCount) =>
        some (readHandler F { s with reads := s.reads.eraseIdx i } ec bytesCount)
      | _ => none
  | .waitCompletes i ec => match s.waits[i]? with
    | some (.waiting _) => some { s with waits := s.waits.set i (.completed ec) }
    | _ => none
  | .waitHandler i outcomes =>
    if s.stopped then none
    else match s.waits[i]? with
      | some (.completed ec) =>
        finish (waitHandler F { s with waits := s.waits.eraseIdx i } ec outcomes)
      | _ => none

/-- A session that was just constructed; the input buffer is not cleared. -/
def initial (device : String) (inputBuf : InputBuf) : Session μ :=
  { device := device, portOpen := false, options := [], inputBuf := inputBuf, inData := []
    reads := [], waits := [], stopped := false, portLog := [], dispatched := [], cerr := []
    returned := [], delivered := [], received := [], consumed := [] }

end Session

end SimpleDgps
