import LfSentry.Runs
import LfSentry.SerialPublish
/-!
# SerialReceive — the receive thread and the port guard (`receiveData`, `serialPortProtect`)

The threads share `is_usb_ok_` and the port.  A step of the receive thread is the test at the head of its loop, or the
return of the `receive` call it waits in, with everything up to its next call; a step of the guard is one turn of its
loop; of the send thread only a failing `send` is here.  The port counts the bytes it has handed out, so an assembled
buffer can name the stretch of the stream it was read from.
-/
namespace LfSentry
namespace Serial

/-- Where the receive thread is, with the locals that are live there; `start` is the stream offset of the byte read
into `sof`. -/
inductive Pc where
  /-- At the head of the loop. -/
  | top
  /-- In `receive(sof)`. -/
  | sof
  /-- In `receive(header_frame_buf)`. -/
  | header (start : Nat) (sof : U8)
  /-- In `receive(data_buf)`. -/
  | data (start : Nat) (headerFrameBuf : List U8)
  /-- In `receive(remain_buf)`. -/
  | remain (start : Nat) (headerFrameBuf dataBuf : List U8) (receivedLenSum remainLen : Nat)
deriving DecidableEq

structure Sys where
  node : Node
  pc : Pc
  sofCount : Nat
  retryCount : Nat
  /-- `port()->is_open()`. -/
  portOpen : Bool
  /-- The guard is past its first attempt to open the port. -/
  guardLoops : Bool
  /-- Bytes that `receive` has delivered so far. -/
  taken : Nat
deriving DecidableEq

inductive Input where
  /-- The receive thread tests `is_usb_ok_`. -/
  | wake
  /-- The pending `receive` returns, having filled the front of its buffer with these bytes. -/
  | read (chunk : List U8)
  /-- The pending `receive` throws. -/
  | readFails
  /-- A turn of the guard; whether `open` succeeds, if it is called. -/
  | protect (opens : Bool)
  /-- A `send` of the send thread throws. -/
  | sendFails
  /-- The other node has taken the detector colour. -/
  | paramSet
deriving DecidableEq

inductive Event where
  | assembled (start stop : Nat) (dataBuf : List U8)
  | dispatch (headerFrame : HeaderFrame) (dataBuf : List U8)
  | published (msg : Msg)
  | caught (e : Exn)
  | portClosed
  | portOpened
deriving DecidableEq

def Pc.wants : Pc → Nat
  | .top => 0
  | .sof => 1
  | .header _ _ => 3
  | .data _ headerFrameBuf => (headerFrameOf headerFrameBuf).len.toNat + 2
  | .remain _ _ _ _ remainLen => remainLen

/-- A buffer whose front was overwritten. -/
def fill (buf chunk : List U8) : List U8 := chunk ++ buf.drop chunk.length

/-- `dst.insert(dst.begin() + at, src.begin(), src.end())`. -/
def insertAt (dst : List U8) (at_ : Nat) (src : List U8) : List U8 := dst.take at_ ++ src ++ dst.drop at_

section
variable (ros : Ros)

/-- Hands a packet to its handler; an exception marks the link as broken. -/
def handle (s : Sys) (p : Packet) : Sys × List Event :=
  match handlePacket ros p ⟨s.node, []⟩ with
  | .ok _ st => ({ s with node := st.node }, st.out.map .published)
  | .error e st => ({ s with node := { st.node with isUsbOk := false } }, st.out.map .published ++ [.caught e])

/-- From the last byte of the data segment to the end of the turn. -/
def finish (s : Sys) (start : Nat) (headerFrameBuf dataBuf : List U8) : Sys × List Event :=
  let s := { s with pc := .top }
  let headerFrame := headerFrameOf headerFrameBuf
  let dataBuf := insertAt dataBuf 0 headerFrameBuf
  let assembled := Event.assembled start s.taken dataBuf
  if !s.node.debug && headerFrame.id == idDebug then (s, [assembled])
  else if !verifyCrc16CheckSum dataBuf then (s, [assembled])
  else
    let (s, es) := handle ros s (packetOf headerFrame dataBuf)
    (s, assembled :: .dispatch headerFrame dataBuf :: es)

/-- The test of the refill loop. -/
def refill (s : Sys) (start : Nat) (headerFrameBuf dataBuf : List U8) (receivedLenSum remainLen : Nat) :
    Sys × List Event :=
  if 0 < remainLen then ({ s with pc := .remain start headerFrameBuf dataBuf receivedLenSum remainLen }, [])
  else finish ros s start headerFrameBuf dataBuf

def onRead (s : Sys) (chunk : List U8) : Sys × List Event :=
  let start := s.taken
  let s := { s with taken := s.taken + chunk.length }
  match s.pc with
  | .top => (s, [])
  | .sof =>
    let sof := (fill [0] chunk).headD 0
    if sof != sofReceive then ({ s with pc := .top, sofCount := s.sofCount + 1 }, [])
    else ({ s with pc := .header start sof, sofCount := 0 }, [])
  | .header start sof =>
    let headerFrameBuf := sof :: fill (List.replicate 3 0) chunk
    let headerFrame := headerFrameOf headerFrameBuf
    let crc8Ok := verifyCrc8CheckSum [headerFrame.sof, headerFrame.len, headerFrame.id, headerFrame.crc]
      sizeofHeaderFrame
    if !crc8Ok then ({ s with pc := .top }, [])
    else ({ s with pc := .data start headerFrameBuf }, [])
  | .data start headerFrameBuf =>
    let len := (headerFrameOf headerFrameBuf).len.toNat
    let dataBuf := fill (List.replicate (len + 2) 0) chunk
    let receivedLen := chunk.length
    refill ros s start headerFrameBuf dataBuf receivedLen (len + 2 - receivedLen)
  | .remain start headerFrameBuf dataBuf receivedLenSum remainLen =>
    let remainBuf := fill (List.replicate remainLen 0) chunk
    let receivedLen := chunk.length
    let dataBuf := insertAt dataBuf receivedLenSum remainBuf
    refill ros s start headerFrameBuf dataBuf (receivedLenSum + receivedLen) (remainLen - receivedLen)

/-- A turn of `serialPortProtect`; before its loop, its first attempt to open the port. -/
def onProtect (s : Sys) (opens : Bool) : Sys × List Event :=
  if !s.guardLoops then
    let s := { s with guardLoops := true, node := { s.node with isUsbOk := true } }
    if !s.portOpen && opens then ({ s with portOpen := true }, [.portOpened]) else (s, [])
  else if !s.node.isUsbOk then
    let closed : List Event := if s.portOpen then [.portClosed] else []
    if opens then
      ({ s with portOpen := true, node := { s.node with isUsbOk := true } }, closed ++ [.portOpened])
    else ({ s with portOpen := false }, closed)
  else (s, [])

def step (s : Sys) : Input → Option (Sys × List Event)
  | .wake =>
    if s.pc = .top then
      if !s.node.isUsbOk then some ({ s with retryCount := s.retryCount + 1 }, [])
      else some ({ s with pc := .sof }, [])
    else none
  | .read chunk => if 1 ≤ chunk.length ∧ chunk.length ≤ s.pc.wants then some (onRead ros s chunk) else none
  | .readFails =>
    if s.pc = .top then none
    else some ({ s with pc := .top, node := { s.node with isUsbOk := false } }, [.caught (.thrown "receive")])
  | .protect opens => some (onProtect s opens)
  | .sendFails => some ({ s with node := { s.node with isUsbOk := false } }, [])
  | .paramSet => some ({ s with node := { s.node with initialSetParam := true } }, [])

def link : Machine Sys Input Event := ⟨step ros⟩

end

/-! ## Reading a run -/

def bytesRead : List Input → List U8
  | [] => []
  | .read chunk :: is => chunk ++ bytesRead is
  | _ :: is => bytesRead is

def DriverOk (is : List Input) : Prop := ∀ i ∈ is, i ≠ .readFails ∧ i ≠ .sendFails ∧ i ≠ .protect false

instance : DecidablePred DriverOk := fun is =>
  inferInstanceAs (Decidable (∀ i ∈ is, i ≠ .readFails ∧ i ≠ .sendFails ∧ i ≠ .protect false))

/-- The pending `receive` fills its whole buffer. -/
def FullRead (s : Sys) (i : Input) : Prop := ∀ chunk, i = .read chunk → chunk.length = s.pc.wants

/-- The pending `receive`, if it is the one of a header, fills its whole buffer. -/
def FullHeaderRead (s : Sys) (i : Input) : Prop :=
  ∀ chunk start sof, i = .read chunk → s.pc = .header start sof → chunk.length = 3

/-- The buffers assembled, each with the stretch of the stream it came from. -/
def assembledOf (es : List Event) : List (Nat × Nat × List U8) :=
  es.filterMap fun | .assembled start stop buf => some (start, stop, buf) | _ => none

/-- The buffers that reach the switch. -/
def dispatchedOf (es : List Event) : List (HeaderFrame × List U8) :=
  es.filterMap fun | .dispatch h buf => some (h, buf) | _ => none

def packetsOf (es : List Event) : List Packet := (dispatchedOf es).map fun p => packetOf p.1 p.2

/-! ## A started node -/

def Ros.granting : Ros where
  createPublisher _ := .ok ()
  setRpy _ _ _ := ⟨.fin 0, .fin 0, .fin 0, .fin 1⟩
  quaternionAboutZ _ := ⟨.fin 0, .fin 0, .fin 0, .fin 1⟩
  callTriggerService _ _ := .ok true
  setParam _ _ := .ok ()

/-- The node with default parameters, its port open. -/
def Node.started : Node where
  isUsbOk := true
  debug := false
  recordRosbag := false
  setDetectorColor := false
  debugPubMap := []
  initialSetParam := false
  previousReceiveColor := 0
  previousGameProgress := 0
  lastHp := .fin 0
  lastGimbalPitchOdomJoint := ⟨0⟩
  lastGimbalYawOdomJoint := ⟨0⟩
  rosCalls := 0

def Sys.started : Sys where
  node := Node.started
  pc := .top
  sofCount := 0
  retryCount := 0
  portOpen := true
  guardLoops := true
  taken := 0

end Serial
end LfSentry
