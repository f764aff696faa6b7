import OfcBenchmark.Msgbuf
import OfcBenchmark.SwitchMessages

/-!
# Fake switches

`myswitch.c`: the state of a fake switch and its OpenFlow 1.3 handlers, `switchInit`,
`ofp13SwitchHandleRead`, `ofp13SwitchHandleWrite` and `switchGetCount`. What the handlers
ask the system for is an argument: the answers to `read` and `write`, the times
`gettimeofday` returns, and what the stack holds when a handler starts.

Debug output is left out; it changes nothing.
-/

namespace OfcBenchmark
open ByteMemory

/-! ## State -/

/-- `enum testMode`. -/
inductive TestMode
  | latency
  | throughput
deriving DecidableEq, Repr

/-- `enum handshakeStatus`. -/
inductive HandshakeStatus
  | start
  | sendPortDesc
  | learnDstmac
  | readyToSend
  | waiting
deriving DecidableEq, Repr

/-- `struct fakeswitch`. -/
structure Fakeswitch where
  id : ℤ
  sock : Socket
  inbuf : Msgbuf
  outbuf : Msgbuf
  mode : TestMode
  probeState : ℤ
  count : ℤ
  switchStatus : HandshakeStatus
  nextStatus : HandshakeStatus
  probeSize : ℕ
  delay : ℤ
  xid : ℤ
  delay_start : Timeval
  nMacAddresses : ℤ
  macAddress : ℤ
  learnDstMac : Bool
  sendPortDesc : Bool
  bufferId : ℤ
  version : UInt8

/-- Push bytes to `outbuf`. -/
def Fakeswitch.push (fs : Fakeswitch) (bs : List UInt8) : Fakeswitch :=
  { fs with outbuf := msgbufPush fs.outbuf bs }

/-- Everything the switch has pushed to `outbuf` so far: what was written to the
connection, and what is still buffered. -/
def Fakeswitch.sent (fs : Fakeswitch) : List UInt8 := fs.sock.tx ++ fs.outbuf.contents

/-- How a handler can fail to return: `exit(1)`, or a loop that never ends. -/
inductive Halt
  | exit
  | hang
deriving DecidableEq, Repr

/-! ## Initialisation and status changes -/

/-- `switchInit` on a `struct fakeswitch` with arbitrary contents `fs`; `inMem` and `outMem`
are the storage of the two buffers. -/
def switchInit (fs : Fakeswitch) (dpid : ℤ) (sock : Socket) (bufsize : ℕ) (h : 0 < bufsize)
    (delay : ℤ) (mode : TestMode) (nMacAddresses : ℤ) (learnDstMac : Bool) (version : UInt8)
    (inMem outMem stack : Mem) : Fakeswitch :=
  let fs := { fs with
    sock := sock
    id := dpid
    inbuf := msgbufNew inMem bufsize h
    outbuf := msgbufNew outMem bufsize h
    probeState := 0
    mode := mode
    probeSize := (ofp13MakePacketIn dpid 0 0 stack fs.macAddress).2
    count := 0
    switchStatus := .start
    delay := delay
    nMacAddresses := nMacAddresses
    macAddress := 0
    xid := 1
    learnDstMac := learnDstMac
    bufferId := 1
    version := version }
  fs.push (OfpHeader.bytes { version := fs.version, type := OFPT_HELLO,
                             length := htons OfpHeader.size, xid := htonl 1 })

/-- `switchChangeStatusNow`. -/
def switchChangeStatusNow (fs : Fakeswitch) (new_status : HandshakeStatus) : Fakeswitch :=
  let fs := { fs with switchStatus := new_status }
  if new_status = .readyToSend then { fs with count := 0, probeState := 0 } else fs

/-- `switchChangeStatus`, at the time `now`. -/
def switchChangeStatus (now : Timeval) (fs : Fakeswitch) (new_status : HandshakeStatus) :
    Fakeswitch :=
  if fs.delay = 0 then switchChangeStatusNow fs new_status
  else
    { fs with
      switchStatus := .waiting
      nextStatus := new_status
      delay_start :=
        { tv_sec := now.tv_sec + fs.delay.tdiv 1000
          tv_usec := now.tv_usec + fs.delay.tmod 1000 * 1000 } }

/-- `timercmp(a, b, >)`. -/
def timercmpGt (a b : Timeval) : Bool :=
  if a.tv_sec = b.tv_sec then a.tv_usec > b.tv_usec else a.tv_sec > b.tv_sec

/-! ## Reading -/

/-- What the message loop of `ofp13SwitchHandleRead` works on: the static `switch_config`,
the switch, and the local `buf` the replies are built in. -/
structure ReadState where
  config : OfpSwitchConfig
  fs : Fakeswitch
  buf : Mem

/-- Count a response to a probe. -/
def Fakeswitch.credit (fs : Fakeswitch) : Fakeswitch :=
  { fs with count := fs.count + 1, probeState := fs.probeState - 1 }

/-- Restart the probe state, as some controllers block on config. -/
def Fakeswitch.restartProbe (fs : Fakeswitch) : Fakeswitch :=
  if fs.mode = .latency ∧ fs.probeState = 1 then { fs with probeState := 0 } else fs

/-- The `switch` statement of `ofp13SwitchHandleRead` on the message `ofph` points to.
`role` is the local of that name, `now` the time if it is asked for. -/
def ofp13Dispatch (role : Mem) (now : Timeval) (ofph : Mem) (s : ReadState) : ReadState :=
  match Ofp131Type.ofByte (ofph 1) with
  | some .packetOut =>
    -- assume this is in response to what we sent
    if s.fs.switchStatus = .readyToSend ∧ packetOutIsLldp ofph = false then
      { s with fs := s.fs.credit }
    else s
  | some .flowMod =>
    -- `command` of the OpenFlow 1.0 structure
    let command := ofph.load16 56
    if s.fs.switchStatus = .readyToSend ∧
        (command = htons OFPFC_ADD ∨ command = htons OFPFC_MODIFY_STRICT) then
      { s with fs := s.fs.credit }
    else s
  | some .getConfigRequest =>
    let r := makeConfigReply s.config (ofph.load32 4) s.buf
    let fs := s.fs.push (r.2.1.read 0 r.2.2)
    -- restart probe state b/c some controllers block on config
    { config := r.1, fs := fs.restartProbe, buf := r.2.1 }
  | some .setConfig => { s with config := parseSetConfig ofph }
  | some .barrierRequest =>
    let barrier := replyHeader Ofp131Type.barrierReply.toByte (ofph.load32 4)
    { s with fs := s.fs.push barrier.bytes }
  | some .featuresRequest =>
    let r := ofp13MakeFeaturesReply s.fs.id (ofph.load32 4) s.buf
    let fs := s.fs.push (r.1.read 0 r.2)
    { s with fs := switchChangeStatus now fs .sendPortDesc, buf := r.1 }
  | some .echoRequest =>
    let echo := replyHeader OFPT_ECHO_REPLY (ofph.load32 4)
    { s with fs := s.fs.push echo.bytes }
  | some .multipartRequest =>
    let mp_req_type := htons (ofph.load16 8)
    let r := ofp13MakeMultipartReply mp_req_type (ofph.load32 4) s.buf
    if mp_req_type = OFPMP_PORT_DESC then
      -- from now on the switch may leave SEND_PORT_DESC
      let fs := { s.fs with sendPortDesc := true }
      { s with fs := fs.push (r.1.read 0 r.2), buf := r.1 }
    else if mp_req_type = OFPMP_GROUP_FEATURES ∨ mp_req_type = OFPMP_METER_FEATURES then s
    else { s with fs := s.fs.push (r.1.read 0 r.2), buf := r.1 }
  | some .roleRequest => { s with fs := s.fs.push (roleReply (ofph.load32 4) role) }
  -- HELLO, GROUP_MOD, METER_MOD and everything unknown
  | _ => s

/-- "Got more responses than probes": `probeState` goes back to 0. -/
def Fakeswitch.clamp (fs : Fakeswitch) : Fakeswitch :=
  if fs.probeState < 0 then { fs with probeState := 0 } else fs

/-- What an iteration of the message loop does with the message `ofph` points to. -/
def ofp13HandleMessage (role : Mem) (now : Timeval) (ofph : Mem) (s : ReadState) : ReadState :=
  let s := ofp13Dispatch role now ofph s
  { s with fs := s.fs.clamp }

/-- Pull `count` bytes from `inbuf`, without looking at the result. -/
def ReadState.pull (s : ReadState) (count : ℕ) : ReadState :=
  { s with fs := { s.fs with inbuf := (msgbufPull s.fs.inbuf count).1 } }

/-- A handled message: its bytes, and what handling it pushed to `outbuf`. -/
structure Handled where
  message : List UInt8
  pushed : List UInt8
deriving DecidableEq, Repr

/-- The message loop of `ofp13SwitchHandleRead`, for at most `fuel` tests of its condition:
the state it ends in and the messages it handled, or `none` when it needs more. The `i`-th
message sees the time `now i`. -/
def messageLoop (role : Mem) :
    ℕ → (ℕ → Timeval) → ReadState → Option (ReadState × List Handled)
  | 0, _, _ => none
  | fuel + 1, now, s =>
    let count := msgbufCountBuffered s.fs.inbuf
    if count < OfpHeader.size then some (s, [])
    else
      match msgbufPeek s.fs.inbuf with
      | none => none  -- a NULL pointer, which `count` rules out
      | some ofph =>
        let length := htons (ofph.load16 2)
        if count < length then some (s, [])  -- msg not all there yet
        else
          -- the message is pulled first; `ofph` still points to its bytes
          let s' := ofp13HandleMessage role (now 0) ofph (s.pull length)
          let pushed := s'.fs.outbuf.contents.drop s.fs.outbuf.contents.length
          (messageLoop role fuel (fun i => now (i + 1)) s').map fun r =>
            (r.1, ⟨ofph.read 0 length, pushed⟩ :: r.2)

/-- What a call of `ofp13SwitchHandleRead` finds: the answer to `read`, the times, and the
stack where its locals `buf` and `role` are. -/
structure ReadEnv where
  transfer : Transfer
  now : ℕ → Timeval
  buf : Mem
  role : Mem

/-- The state the message loop starts in, after `msgbufRead`. -/
def readState (env : ReadEnv) (config : OfpSwitchConfig) (fs : Fakeswitch) : ReadState :=
  let r := msgbufRead fs.inbuf fs.sock env.transfer
  { config := config, fs := { fs with inbuf := r.1, sock := r.2.1 }, buf := env.buf }

/-- `ofp13SwitchHandleRead`: the new `switch_config` and switch, and the messages handled.
One test more than there are bytes is as much fuel as the loop can use. -/
def ofp13SwitchHandleRead (env : ReadEnv) (config : OfpSwitchConfig) (fs : Fakeswitch) :
    Except Halt (OfpSwitchConfig × Fakeswitch × List Handled) :=
  let s := readState env config fs
  if (msgbufRead fs.inbuf fs.sock env.transfer).2.2 ≤ 0 then .error .exit
  else
    match messageLoop env.role (msgbufCountBuffered s.fs.inbuf + 1) env.now s with
    | none => .error .hang
    | some (s, handled) => .ok (s.config, s.fs, handled)

/-! ## Writing -/

/-- Queue one probe. The local `buf` is overwritten as far as it is pushed. -/
def queueProbe (buf : Mem) (fs : Fakeswitch) : Fakeswitch :=
  let r := ofp13MakePacketIn fs.id fs.xid fs.bufferId buf fs.macAddress
  { fs with
    probeState := fs.probeState + 1
    xid := fs.xid + 1
    macAddress := (fs.macAddress + 1).tmod fs.nMacAddresses
    bufferId := (fs.bufferId + 1).tmod NUM_BUFFER_IDS
    outbuf := msgbufPush fs.outbuf (r.1.read 0 r.2) }

/-- `send_count` of `ofp13SwitchHandleWrite`. -/
def sendCount (fs : Fakeswitch) : ℕ :=
  if fs.mode = .latency ∧ fs.probeState = 0 then 1  -- just send one packet
  -- keep buffer full
  else if fs.mode = .throughput ∧ msgbufCountBuffered fs.outbuf < BUFLEN then
    (BUFLEN - msgbufCountBuffered fs.outbuf) / fs.probeSize
  else 0

/-- `ofp13SwitchLearnDstmac`. -/
def ofp13SwitchLearnDstmac (fs : Fakeswitch) : Fakeswitch :=
  let r := ofp13LearnDstmacPacketIn fs.id fs.xid fs.bufferId
  { fs with xid := fs.xid + 1 }.push (r.1.read 0 r.2)

/-- What a call of `ofp13SwitchHandleWrite` finds. -/
structure WriteEnv where
  transfer : Transfer
  now : Timeval
  buf : Mem

/-- The part of `ofp13SwitchHandleWrite` that depends on the status. -/
def writeStep (env : WriteEnv) (fs : Fakeswitch) : Fakeswitch :=
  match fs.switchStatus with
  | .readyToSend => (queueProbe env.buf)^[sendCount fs] fs
  | .waiting =>
    if timercmpGt env.now fs.delay_start then switchChangeStatusNow fs fs.nextStatus else fs
  | .learnDstmac => switchChangeStatus env.now (ofp13SwitchLearnDstmac fs) .readyToSend
  | .sendPortDesc =>
    -- we should wait for the port description request from the controller
    if fs.sendPortDesc then
      switchChangeStatus env.now fs (if fs.learnDstMac then .learnDstmac else .readyToSend)
    else fs
  | .start => fs

/-- Send any data that is queued. -/
def flushOutbuf (t : Transfer) (fs : Fakeswitch) : Fakeswitch :=
  if 0 < msgbufCountBuffered fs.outbuf then
    let r := msgbufWrite fs.outbuf fs.sock 0 t
    { fs with outbuf := r.1, sock := r.2.1 }
  else fs

/-- `ofp13SwitchHandleWrite`. -/
def ofp13SwitchHandleWrite (env : WriteEnv) (fs : Fakeswitch) : Fakeswitch :=
  flushOutbuf env.transfer (writeStep env fs)

/-- What `poll` and the system answer for one switch. -/
structure IoEnv where
  pollin : Bool
  pollout : Bool
  read : ReadEnv
  write : WriteEnv

/-- `ofp13SwitchHandleIo`: the new `switch_config` and switch, and the messages handled. -/
def ofp13SwitchHandleIo (env : IoEnv) (config : OfpSwitchConfig) (fs : Fakeswitch) :
    Except Halt (OfpSwitchConfig × Fakeswitch × List Handled) :=
  let read :=
    if env.pollin then ofp13SwitchHandleRead env.read config fs else .ok (config, fs, [])
  read.map fun r =>
    if env.pollout then (r.1, ofp13SwitchHandleWrite env.write r.2.1, r.2.2) else r

/-! ## Counting -/

/-- The inner loop of `switchGetCount`, for at most `fuel` tests of its condition: the
buffer it leaves and the byte blocks it pulled, or `none` when it needs more. -/
def drainLoop : ℕ → Msgbuf → ℤ → Option (Msgbuf × List (List UInt8))
  | 0, _, _ => none
  | fuel + 1, inbuf, count =>
    if count ≤ 0 then some (inbuf, [])
    else
      match msgbufPeek inbuf with
      | none => none  -- a NULL pointer
      | some ofph =>
        -- the header may lie behind the bytes buffered
        let msglen := htons (ofph.load16 2)
        if count < msglen then some (inbuf, [])  -- msg not all there yet
        else
          let pulled := msgbufPull inbuf msglen
          (drainLoop fuel pulled.1 (count - msglen)).map fun r => (r.1, pulled.2.1 :: r.2)

/-- The outer loop of `switchGetCount`. The answers to `read` are taken from the list;
when it is used up there is nothing more to read, and the call fails. -/
def drainReads : List Transfer → Msgbuf → Socket →
    Except Halt (Msgbuf × Socket × List (List UInt8))
  | [], inbuf, sock =>
    let r := msgbufRead inbuf sock .error
    .ok (r.1, r.2.1, [])
  | t :: ts, inbuf, sock =>
    let r := msgbufRead inbuf sock t
    if r.2.2 ≤ 0 then .ok (r.1, r.2.1, [])
    else
      -- the inner loop counts the bytes of this read down
      match drainLoop (r.2.2.toNat + 1) r.1 r.2.2 with
      | none => .error .hang
      | some (inbuf, pulled) =>
        (drainReads ts inbuf r.2.1).map fun r' => (r'.1, r'.2.1, pulled ++ r'.2.2)

/-- `switchGetCount`: the count returned, the switch, and the byte blocks pulled. -/
def switchGetCount (ts : List Transfer) (fs : Fakeswitch) :
    Except Halt (ℤ × Fakeswitch × List (List UInt8)) :=
  (drainReads ts fs.inbuf fs.sock).map fun r =>
    (fs.count, { fs with count := 0, probeState := 0, inbuf := r.1, sock := r.2.1 }, r.2.2)

/-! ## Runs -/

/-- What `runTest` does with one switch: it handles its connection when `poll` says so, and
it collects its count at the end of a loop. -/
inductive Call
  | io (env : IoEnv)
  | getCount (ts : List Transfer)

/-- Bytes that left `inbuf`: a message that was handled, or a block that `switchGetCount`
threw away. -/
inductive Removed
  | handled (h : Handled)
  | discarded (block : List UInt8)

/-- The bytes themselves. -/
def Removed.bytes : Removed → List UInt8
  | .handled h => h.message
  | .discarded block => block

/-- One call. -/
def runCall (call : Call) (config : OfpSwitchConfig) (fs : Fakeswitch) :
    Except Halt (OfpSwitchConfig × Fakeswitch × List Removed) :=
  match call with
  | .io env =>
    (ofp13SwitchHandleIo env config fs).map fun r => (r.1, r.2.1, r.2.2.map .handled)
  | .getCount ts =>
    (switchGetCount ts fs).map fun r => (config, r.2.1, r.2.2.map .discarded)

/-- The calls one after the other, with everything that left `inbuf` on the way. -/
def runCalls : List Call → OfpSwitchConfig → Fakeswitch →
    Except Halt (OfpSwitchConfig × Fakeswitch × List Removed)
  | [], config, fs => .ok (config, fs, [])
  | call :: calls, config, fs => do
    let r ← runCall call config fs
    let r' ← runCalls calls r.1 r.2.1
    .ok (r'.1, r'.2.1, r.2.2 ++ r'.2.2)

/-! ## A concrete switch -/

/-- A switch on zeroed memory, connected to a controller that has sent `rx`. -/
def connectedSwitch (mode : TestMode) (rx : List UInt8) : Fakeswitch :=
  let zeroed : Fakeswitch :=
    { id := 0, sock := ⟨[], []⟩
      inbuf := msgbufNew (fun _ => 0) 1 one_pos, outbuf := msgbufNew (fun _ => 0) 1 one_pos
      mode := .latency, probeState := 0, count := 0, switchStatus := .start
      nextStatus := .start, probeSize := 0, delay := 0, xid := 0, delay_start := ⟨0, 0⟩
      nMacAddresses := 0, macAddress := 0, learnDstMac := false, sendPortDesc := false
      bufferId := 0, version := 0 }
  switchInit zeroed 1 ⟨rx, []⟩ BUFLEN (by decide) 0 mode 100000 false OFP131_VERSION
    (fun _ => 0) (fun _ => 0) (fun _ => 0)

/-- An ECHO_REQUEST. -/
def echoRequest (xid : UInt8) : List UInt8 := [4, 2, 0, 8, 0, 0, 0, xid]

/-- A FEATURES_REQUEST. -/
def featuresRequest : List UInt8 := [4, 5, 0, 8, 0, 0, 0, 1]

/-- A MULTIPART_REQUEST for the port description. -/
def portDescRequest : List UInt8 := [4, 18, 0, 16, 0, 0, 0, 2, 0, 13, 0, 0, 0, 0, 0, 0]

/-- A FLOW_MOD that adds a flow for port 1. -/
def addPortFlow : List UInt8 :=
  [4, 14, 0, 64, 0, 0, 0, 3] ++ List.replicate 40 0 ++
    [0, 1, 0, 12, 128, 0, 0, 4, 0, 0, 0, 1, 0, 0, 0, 0]

/-- A `read` that returns at most `k` bytes, on a zeroed stack. -/
def readUpTo (k : ℕ) : ReadEnv where
  transfer := .upTo k
  now := fun _ => ⟨0, 0⟩
  buf := fun _ => 0
  role := fun _ => 0

/-- A `write` that accepts at most `k` bytes, on a zeroed stack. -/
def writeUpTo (k : ℕ) : WriteEnv where
  transfer := .upTo k
  now := ⟨0, 0⟩
  buf := fun _ => 0

/-- A call of `ofp13SwitchHandleIo` that reads at most `k` bytes and writes nothing. -/
def ioReadUpTo (k : ℕ) : IoEnv where
  pollin := true
  pollout := false
  read := readUpTo k
  write := writeUpTo 0

end OfcBenchmark
