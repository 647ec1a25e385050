import ZipGateway.Lib.Memory

/-!
# The serial link

`ConTxFrame` and `ConUpdate` put frames on the serial line and take them off it. The loops of the serial API call
`ConUpdate` one by one: what runs is a stack, since a callback may send again.
-/

namespace ZipGateway.SerialLink

def sof : UInt8 := 0x01
def ack : UInt8 := 0x06
def nak : UInt8 := 0x15
def can : UInt8 := 0x18
def request : UInt8 := 0x00
def response : UInt8 := 0x01
def frameLengthMin : UInt8 := 3
def txBufferSize : Nat := 255
def maxRxqueueLen : Nat := 10
abbrev idxCmd : Nat := 2

section Frames

def checksumLoop (txBuffer : Mem) (bound : Nat) : Nat → UInt8 → UInt8 → Option UInt8
  | 0, _, _ => none
  | fuel + 1, i, bChecksum =>
    if i.toNat < bound then checksumLoop txBuffer bound fuel (i + 1) (bChecksum ^^^ txBuffer (i.toNat + 1))
    else some bChecksum

def conTxFrame (fuel : Nat) (cmd type : UInt8) (buf : Bytes) : Option Bytes := do
  let len := buf.length
  let txBuffer := (Mem.ofBytes [sof, UInt8.ofNat len + 3, type, cmd]).write 4 buf
  let bChecksum ← checksumLoop txBuffer (len + 3) fuel 0 0xFF
  return (txBuffer.write (4 + len) [bChecksum]).slice 0 (len + 5)

inductive ConState where
  | sofHunt | len
deriving DecidableEq, Repr

inductive ConType where
  | idle | frameReceived | frameSent | frameErr | rxTimeout | txTimeout | txErr | txWait
deriving DecidableEq, Repr

/-- The serial port: what has come and is not read, what was written, and the receiver. `acked` are the frames
that got an ACK, oldest first. -/
structure Port where
  line : Bytes
  tx : Bytes
  conState : ConState
  serBuf : Mem
  serBufLen : UInt8
  rxActive : Bool
  ackNakNeeded : Bool
  acked : List Bytes

def Port.frame (p : Port) : Bytes :=
  p.serBuf.slice 0 p.serBufLen.toNat

def xorSum (data : Bytes) : UInt8 :=
  data.foldl (· ^^^ ·) 0xFF

def Port.takeFrame (p : Port) (c : UInt8) (line : Bytes) : ConType × Port :=
  let p := { p with
    serBuf := p.serBuf.write 0 (c :: line.take c.toNat)
    serBufLen := c
    line := line.drop c.toNat
    conState := .sofHunt
    rxActive := false }
  if xorSum (p.serBuf.slice 0 (c.toNat + 1)) = 0 then
    (.frameReceived, { p with tx := p.tx ++ [ack], acked := p.acked ++ [p.frame] })
  else (.frameErr, { p with tx := p.tx ++ [nak] })

def Port.answer (p : Port) (c : UInt8) : ConType :=
  if p.ackNakNeeded then
    if c = ack then .frameSent else if c = nak then .txErr else if c = can then .txWait else .idle
  else .idle

/-- The loop over the bytes that have come. A frame is read whole, and waited for. -/
def conLoop (p : Port) : Bytes → Option (ConType × Port)
  | [] => some (.idle, { p with line := [] })
  | c :: line =>
    match p.conState with
    | .sofHunt =>
      if c = sof then conLoop { p with serBufLen := 0, rxActive := true, conState := .len } line
      else
        let retVal := p.answer c
        if retVal = .idle then conLoop p line else some (retVal, { p with line := line, ackNakNeeded := false })
    | .len =>
      if c < frameLengthMin then conLoop { p with conState := .sofHunt, rxActive := false } line
      else if line.length < c.toNat then none
      else some (p.takeFrame c line)

def conUpdate (p : Port) (more : Bytes) (rxExpired ackExpired : Bool) : Option (ConType × Port) := do
  let (retVal, p) ← conLoop p (p.line ++ more)
  if retVal = .idle then
    let (retVal, p) := if p.rxActive && rxExpired then
        (.rxTimeout, { p with conState := .sofHunt, rxActive := false }) else (retVal, p)
    return if p.ackNakNeeded && ackExpired then (.txTimeout, { p with ackNakNeeded := false }) else (retVal, p)
  else return (retVal, p)

def Port.init : Port := ⟨[], [], .sofHunt, fun _ => 0, 0, false, false, []⟩

/-- The frame that `ConTxFrame` is to send, without its start and its checksum. -/
def frameOf (cmd type : UInt8) (buf : Bytes) : Bytes :=
  [UInt8.ofNat buf.length + 3, type, cmd] ++ buf

/-- `ConTxFrame` ends, stays inside its buffer, writes the frame with its checksum, and the other end takes it. -/
def SentRight (cmd type : UInt8) (buf : Bytes) : Prop :=
  ∃ fuel bChecksum, conTxFrame fuel cmd type buf = some (sof :: frameOf cmd type buf ++ [bChecksum]) ∧
    buf.length + 5 ≤ txBufferSize ∧
    ∃ p, conUpdate .init (sof :: frameOf cmd type buf ++ [bChecksum]) false false = some (.frameReceived, p) ∧
      p.acked = [frameOf cmd type buf]

variable {txBuffer : Mem} {bound fuel : Nat} {cmd type : UInt8} {buf : Bytes} {p p' : Port} {r : ConType}

theorem checksumLoop_eq (hbound : bound < 256) {i s : UInt8} (hi : i.toNat ≤ bound) (hfuel : bound - i.toNat < fuel) :
    checksumLoop txBuffer bound fuel i s =
      some ((txBuffer.slice (i.toNat + 1) (bound - i.toNat)).foldl (· ^^^ ·) s) := by
  induction fuel generalizing i s with
  | zero => omega
  | succ fuel ih =>
    rw [checksumLoop]
    by_cases hlt : i.toNat < bound
    · have hnext : (i + 1).toNat = i.toNat + 1 := by
        rw [UInt8.toNat_add]
        exact Nat.mod_eq_of_lt (by simp; omega)
      have hslice : txBuffer.slice (i.toNat + 1) (bound - i.toNat) =
          txBuffer (i.toNat + 1) :: txBuffer.slice (i.toNat + 1 + 1) (bound - (i.toNat + 1)) := by
        have hcons := Mem.slice_cons txBuffer (s := i.toNat + 1) (n := bound + 1) (by omega)
        rwa [show bound + 1 - (i.toNat + 1) = bound - i.toNat by omega,
          show bound + 1 - (i.toNat + 1 + 1) = bound - (i.toNat + 1) by omega] at hcons
      rw [if_pos hlt, ih (by omega) (by omega), hnext, hslice, List.foldl_cons]
    · rw [if_neg hlt, show bound - i.toNat = 0 by omega]
      rfl

theorem slice_txBuffer (cmd type : UInt8) (buf : Bytes) :
    ((Mem.ofBytes [sof, UInt8.ofNat buf.length + 3, type, cmd]).write 4 buf).slice 0 (4 + buf.length) =
      sof :: frameOf cmd type buf := by
  rw [Mem.slice_add, Mem.slice_write_of_disjoint (.inl (by omega)), Nat.zero_add, Mem.slice_write_self]
  rfl

theorem conTxFrame_eq (hlen : buf.length ≤ 250) :
    conTxFrame 256 cmd type buf = some (sof :: frameOf cmd type buf ++ [xorSum (frameOf cmd type buf)]) := by
  have hslice := slice_txBuffer cmd type buf
  have hframe : ((Mem.ofBytes [sof, UInt8.ofNat buf.length + 3, type, cmd]).write 4 buf).slice 1 (buf.length + 3) =
      frameOf cmd type buf := by
    have hcons := Mem.slice_cons ((Mem.ofBytes [sof, UInt8.ofNat buf.length + 3, type, cmd]).write 4 buf)
      (s := 0) (n := 4 + buf.length) (by omega)
    rw [Nat.sub_zero, hslice, show 4 + buf.length - (0 + 1) = buf.length + 3 by omega] at hcons
    exact (List.cons.inj hcons).2.symm
  simp only [conTxFrame]
  rw [checksumLoop_eq (i := 0) (by omega) (Nat.zero_le _) (by simp; omega)]
  simp only [Option.bind_eq_bind, Option.bind_some, Option.pure_def, Option.some.injEq]
  rw [show buf.length + 5 = (4 + buf.length) + 1 by omega, Mem.slice_add, Nat.zero_add]
  rw [Mem.slice_write_of_disjoint (.inl (by omega)), hslice]
  have hlast := Mem.slice_write_self ((Mem.ofBytes [sof, UInt8.ofNat buf.length + 3, type, cmd]).write 4 buf)
    (4 + buf.length) [xorSum (frameOf cmd type buf)]
  rw [List.length_singleton] at hlast
  rw [show (0 : UInt8).toNat = 0 from rfl, Nat.sub_zero, Nat.zero_add, hframe]
  exact congrArg _ hlast

theorem xorSum_append_self (data : Bytes) : xorSum (data ++ [xorSum data]) = 0 := by
  rw [xorSum, List.foldl_append]
  exact UInt8.xor_self

theorem takeFrame_received (p : Port) {c : UInt8} {data : Bytes} (rest : Bytes) (hlen : c.toNat = data.length + 1) :
    (p.takeFrame c (data ++ xorSum (c :: data) :: rest)).1 = .frameReceived ∧
      (p.takeFrame c (data ++ xorSum (c :: data) :: rest)).2.acked = p.acked ++ [c :: data] := by
  have htake : (data ++ xorSum (c :: data) :: rest).take c.toNat = data ++ [xorSum (c :: data)] := by
    rw [List.append_cons]
    exact List.take_left' (by simp [hlen])
  have hbuf : (p.serBuf.write 0 (c :: (data ++ [xorSum (c :: data)]))).slice 0 (c.toNat + 1) =
      c :: data ++ [xorSum (c :: data)] := by
    have hself := Mem.slice_write_self p.serBuf 0 (c :: (data ++ [xorSum (c :: data)]))
    rwa [show (c :: (data ++ [xorSum (c :: data)])).length = c.toNat + 1 by simp [hlen]] at hself
  have hframe : (p.serBuf.write 0 (c :: (data ++ [xorSum (c :: data)]))).slice 0 c.toNat = c :: data := by
    have htake := Mem.take_slice (p.serBuf.write 0 (c :: (data ++ [xorSum (c :: data)]))) 0 1 c.toNat
    rw [hbuf] at htake
    rw [← htake]
    exact List.take_left' (by simp [hlen])
  simp only [Port.takeFrame, htake, hbuf, xorSum_append_self, if_true, Port.frame, hframe]
  exact ⟨trivial, trivial⟩

theorem conUpdate_of_conLoop {more : Bytes} {rxExpired ackExpired : Bool}
    (h : conLoop p (p.line ++ more) = some (r, p')) (hr : r ≠ .idle) :
    conUpdate p more rxExpired ackExpired = some (r, p') := by
  simp [conUpdate, h, hr]

theorem sentRight_iff (hlen : buf.length < 256) : SentRight cmd type buf ↔ buf.length ≤ 250 := by
  constructor
  · rintro ⟨_, _, _, hinside, _⟩
    unfold txBufferSize at hinside
    omega
  · intro hle
    have hc : (UInt8.ofNat buf.length + 3).toNat = ([type, cmd] ++ buf).length + 1 := by
      rw [UInt8.toNat_add, UInt8.toNat_ofNat', Nat.mod_eq_of_lt hlen]
      simp
      omega
    refine ⟨256, _, conTxFrame_eq hle, by unfold txBufferSize; omega, ?_⟩
    obtain ⟨hreceived, hacked⟩ := takeFrame_received { Port.init with rxActive := true, conState := .len } [] hc
    have hmin : ¬UInt8.ofNat buf.length + 3 < frameLengthMin := by
      rw [UInt8.lt_iff_toNat_lt, hc]
      simp [frameLengthMin]
    have hloop : conLoop .init (sof :: frameOf cmd type buf ++ [xorSum (frameOf cmd type buf)]) =
        some (Port.takeFrame { Port.init with rxActive := true, conState := .len } (UInt8.ofNat buf.length + 3)
          ([type, cmd] ++ buf ++ [xorSum (frameOf cmd type buf)])) := by
      show conLoop .init (sof :: (UInt8.ofNat buf.length + 3) ::
        ([type, cmd] ++ buf ++ [xorSum (frameOf cmd type buf)])) = _
      simp only [conLoop, Port.init, if_true]
      rw [if_neg hmin, if_neg]
      simp [hc]
    exact ⟨_, conUpdate_of_conLoop (hloop.trans (congrArg some (Prod.ext hreceived rfl))) (by decide), hacked⟩

/-- What `ConUpdate` does to the receiver: a frame is acknowledged and left in the buffer, or none is. -/
def Received (p : Port) (r : ConType) (p' : Port) : Prop :=
  r = .frameReceived ∧ p'.acked = p.acked ++ [p'.frame] ∧ p'.serBuf 0 = p'.serBufLen ∧ frameLengthMin ≤ p'.serBufLen ∨
    r ≠ .frameReceived ∧ p'.acked = p.acked

theorem takeFrame_cases (p : Port) {c : UInt8} (line : Bytes) (hc : frameLengthMin ≤ c) :
    Received p (p.takeFrame c line).1 (p.takeFrame c line).2 := by
  unfold Port.takeFrame
  extract_lets q
  split
  · have hheader : q.serBuf 0 = c := by
      show p.serBuf.write 0 (c :: line.take c.toNat) 0 = c
      rw [Mem.write_of_mem (Nat.le_refl _) (by simp)]
      rfl
    exact .inl ⟨rfl, rfl, hheader, hc⟩
  · exact .inr ⟨ConType.noConfusion, rfl⟩

theorem answer_ne_frameReceived (p : Port) (c : UInt8) : p.answer c ≠ .frameReceived := by
  unfold Port.answer
  split_ifs <;> decide

theorem conLoop_cases {line : Bytes} (h : conLoop p line = some (r, p')) : Received p r p' := by
  induction line generalizing p with
  | nil =>
    cases h
    exact .inr ⟨by decide, rfl⟩
  | cons c line ih =>
    rw [conLoop] at h
    split at h
    · split at h
      · have hnext := ih h
        exact hnext
      · extract_lets retVal at h
        split at h
        · exact ih h
        · obtain ⟨rfl, rfl⟩ := Prod.mk.inj (Option.some.inj h)
          exact .inr ⟨answer_ne_frameReceived p c, rfl⟩
    · split at h
      · have hnext := ih h
        exact hnext
      · rename_i hmin
        split at h
        · contradiction
        · have hcases := takeFrame_cases p line (UInt8.not_lt.mp hmin)
          rwa [Option.some.inj h] at hcases

theorem conUpdate_cases {more : Bytes} {rxExpired ackExpired : Bool}
    (h : conUpdate p more rxExpired ackExpired = some (r, p')) : Received p r p' := by
  unfold conUpdate at h
  obtain ⟨⟨r₁, p₁⟩, hloop, h⟩ := Option.bind_eq_some_iff.mp h
  have hcases := conLoop_cases hloop
  simp only at h
  split at h
  · rename_i hidle
    subst hidle
    obtain ⟨habsurd, -⟩ | ⟨-, hacked⟩ := hcases
    · contradiction
    · split_ifs at h <;> cases h <;> exact .inr ⟨ConType.noConfusion, hacked⟩
  · cases h
    exact hcases

end Frames

structure Send where
  cmd : UInt8
  paramBuf : Bytes
  withResponse : Bool
  len_lt : paramBuf.length < 256

/-- A loop that calls `ConUpdate`, or a callback out of `SerialAPI_Poll`. -/
inductive Task where
  | dispatch | drainRx | applicationPoll
  /-- `SendFrame` looks for incoming frames first. -/
  | sendFirst (send : Send)
  /-- `WaitResponse` in the loop of `SendFrame`. -/
  | sendWait (send : Send) (i : Nat)
  /-- `DrainRX` before a retransmission: between two of them the timer is tested. -/
  | backoff (send : Send) (i : Nat) (draining : Bool)
  /-- `WaitResponse` in the loop of `SendFrameWithResponse`. -/
  | response (send : Send) (i : Nat)

/-- The serial API: `dispatched` is every frame `Dispatch` was called with, `replies` what
`SendFrameWithResponse` returned. -/
structure Api where
  port : Port
  rxQueue : List Bytes
  dispatched : List Bytes
  replies : List (UInt8 × Bytes)
  stack : List Task

inductive Op where
  | send (send : Send)
  | poll
  | return
  /-- A loop calls `ConUpdate`, and when that has nothing `WaitResponse` tests its timer. -/
  | conUpdate (more : Bytes) (rxExpired ackExpired expired : Bool)
  /-- The timer before a retransmission has expired. -/
  | resend

namespace Api

def queueFrame (s : Api) : Api :=
  if maxRxqueueLen ≤ s.rxQueue.length then s else { s with rxQueue := s.rxQueue ++ [s.port.frame] }

def queueRequest (s : Api) : Api :=
  if s.port.serBuf 1 = request then s.queueFrame else s

/-- `ConTxFrame` on the way to the chip. -/
def transmit (s : Api) (send : Send) : Option Api := do
  let bytes ← conTxFrame 256 send.cmd request send.paramBuf
  return { s with port := { s.port with tx := s.port.tx ++ bytes, ackNakNeeded := true } }

def serialRestart (s : Api) : Api := { s with port := { s.port with line := [] } }

/-- The next turn of the loop of `SendFrame`, which gives up after 20. -/
def sendTurn (s : Api) (send : Send) (i : Nat) (stack : List Task) : Api :=
  { s with stack := if i < 20 then .sendWait send i :: stack else stack }

/-- The next turn of the loop of `SendFrameWithResponse`, which gives up after 3. -/
def responseTurn (s : Api) (send : Send) (i : Nat) (stack : List Task) : Api :=
  { s with stack := if i < 3 then .response send i :: stack else stack }

def sendFrame (s : Api) (send : Send) (i : Nat) (stack : List Task) : ConType → Api
  | .frameSent => if send.withResponse then s.responseTurn send 0 stack else { s with stack := stack }
  | .frameReceived => s.queueRequest.sendTurn send ((if i = 0 then i else i - 1) + 1) stack
  | _ => { (if i % 8 = 7 then s.serialRestart else s) with stack := .backoff send i false :: stack }

def sendFrameWithResponse (s : Api) (send : Send) (i : Nat) (stack : List Task) (r : ConType) : Api :=
  if r = .frameReceived then
    if s.port.serBuf 1 = request then s.queueFrame.responseTurn send (i + 1) stack
    else if s.port.serBuf idxCmd = send.cmd then
      { s with
        replies := s.replies ++ [(send.cmd, s.port.serBuf.slice 0 (s.port.serBuf 0).toNat)]
        stack := stack }
    else s.responseTurn send (i + 1) stack
  else s.responseTurn send (i + 1) stack

/-- What the loop on top makes of the result of `ConUpdate`. -/
def received (s : Api) (r : ConType) (expired : Bool) : Option Api :=
  let waited := if r = .idle then .rxTimeout else r
  match s.stack with
  | .drainRx :: stack =>
    some (if r = .frameReceived then s.queueRequest else { s with stack := .applicationPoll :: stack })
  | .sendFirst send :: stack =>
    if r = .frameReceived then some s.queueRequest
    else { s with stack := .sendWait send 0 :: stack }.transmit send
  | .sendWait send i :: stack =>
    some (if r = .idle ∧ expired = false then s else s.sendFrame send i stack waited)
  | .backoff send i _ :: stack =>
    let s := if r = .frameReceived then s.queueRequest else s
    some { s with stack := .backoff send i (r = .frameReceived) :: stack }
  | .response send i :: stack =>
    some (if r = .idle ∧ expired = false then s else s.sendFrameWithResponse send i stack waited)
  | _ => none

def inCallback (s : Api) : Bool :=
  match s.stack with
  | [] | .dispatch :: _ | .applicationPoll :: _ => true
  | _ => false

def poll (s : Api) : Api :=
  match s.rxQueue with
  | [] => { s with stack := .drainRx :: s.stack }
  | f :: rxQueue =>
    { s with
      rxQueue := rxQueue
      port := { s.port with serBuf := s.port.serBuf.write 0 f, serBufLen := UInt8.ofNat f.length }
      dispatched := s.dispatched ++ [f]
      stack := .dispatch :: s.stack }

/-- A step of the program; `supportsCommand` are the capabilities of the chip. -/
def step (supportsCommand : UInt8 → Bool) (s : Api) : Op → Option Api
  | .send send =>
    if s.inCallback then
      some (if supportsCommand send.cmd then { s with stack := .sendFirst send :: s.stack } else s)
    else none
  | .poll => if s.inCallback then some s.poll else none
  | .return =>
    match s.stack with
    | .dispatch :: stack => some { s with stack := .drainRx :: stack }
    | .applicationPoll :: stack => some { s with stack := stack }
    | _ => none
  | .conUpdate more rxExpired ackExpired expired => do
    let (r, port) ← conUpdate s.port more rxExpired ackExpired
    { s with port := port }.received r expired
  | .resend =>
    match s.stack with
    | .backoff send i false :: stack => (s.sendTurn send (i + 1) stack).transmit send
    | _ => none

def init : Api := ⟨.init, [], [], [], []⟩

end Api

def requests (frames : List Bytes) : List Bytes :=
  frames.filter fun f => f.getD 1 0 = request

/-- The acknowledged requests were dispatched in their order or wait for it, and every reply is an acknowledged
response to its command. -/
structure Orderly (s : Api) : Prop where
  queued : requests s.port.acked = s.dispatched ++ s.rxQueue
  replies : ∀ r ∈ s.replies, r.2 ∈ s.port.acked ∧ r.2.getD 1 0 = response ∧ r.2.getD idxCmd 0 = r.1

/-- A frame that comes has room in the buffer, it is a request or a response, and a request finds room in the
queue. -/
def Calm (s : Api) : Op → Prop
  | .conUpdate more rxExpired ackExpired _ => ∀ p, conUpdate s.port more rxExpired ackExpired = some (.frameReceived, p) →
      p.serBufLen ≠ 255 ∧ (p.serBuf 1 = request ∧ s.rxQueue.length < maxRxqueueLen ∨ p.serBuf 1 = response)
  | _ => True

section Steps

variable {s s' : Api} {r : ConType} {expired : Bool} {p : Port}

structure Kept (s s' : Api) : Prop where
  acked : s'.port.acked = s.port.acked
  rxQueue : s'.rxQueue = s.rxQueue
  dispatched : s'.dispatched = s.dispatched
  replies : s'.replies = s.replies

theorem Kept.orderly (h : Kept s s') (hs : Orderly s) : Orderly s' := by
  refine ⟨?_, fun r hr => ?_⟩
  · rw [h.acked, h.dispatched, h.rxQueue]
    exact hs.queued
  · rw [h.acked]
    exact hs.replies r (h.replies ▸ hr)

theorem Orderly.restack (hs : Orderly s) (stack : List Task) : Orderly { s with stack := stack } :=
  ⟨hs.queued, hs.replies⟩

theorem kept_transmit {send : Send} (h : s.transmit send = some s') : Kept s s' := by
  obtain ⟨bytes, -, heq⟩ := Option.bind_eq_some_iff.mp h
  cases heq
  exact ⟨rfl, rfl, rfl, rfl⟩

structure Taken (s s' : Api) : Prop where
  acked : s'.port.acked = s.port.acked
  rxQueue : s'.rxQueue = s.queueRequest.rxQueue
  dispatched : s'.dispatched = s.dispatched
  replies : s'.replies = s.replies ∨ s.port.serBuf 1 ≠ request ∧
    s'.replies = s.replies ++ [(s.port.serBuf idxCmd, s.port.serBuf.slice 0 (s.port.serBuf 0).toNat)]

theorem queueRequest_taken (s : Api) : Taken s s.queueRequest := by
  unfold Api.queueRequest Api.queueFrame
  split_ifs <;> exact ⟨rfl, by simp [Api.queueRequest, Api.queueFrame, *], rfl, .inl rfl⟩

theorem Taken.congr {s'' : Api} (h : Taken s s') (hacked : s''.port.acked = s'.port.acked) (hqueue : s''.rxQueue = s'.rxQueue)
    (hdispatched : s''.dispatched = s'.dispatched) (hreplies : s''.replies = s'.replies) : Taken s s'' :=
  ⟨hacked.trans h.acked, hqueue.trans h.rxQueue, hdispatched.trans h.dispatched, hreplies ▸ h.replies⟩

theorem kept_sendFrame (s : Api) (send : Send) (i : Nat) (stack : List Task) (hr : r ≠ .frameReceived) :
    Kept s (s.sendFrame send i stack r) := by
  cases r with
  | frameReceived => exact absurd rfl hr
  | frameSent =>
    simp only [Api.sendFrame]
    split <;> exact ⟨rfl, rfl, rfl, rfl⟩
  | idle | frameErr | rxTimeout | txTimeout | txErr | txWait =>
    simp only [Api.sendFrame]
    split <;> exact ⟨rfl, rfl, rfl, rfl⟩

theorem taken_sendFrame (s : Api) (send : Send) (i : Nat) (stack : List Task) :
    Taken s (s.sendFrame send i stack .frameReceived) :=
  (queueRequest_taken s).congr rfl rfl rfl rfl

theorem taken_sendFrameWithResponse (s : Api) (send : Send) (i : Nat) (stack : List Task) :
    Taken s (s.sendFrameWithResponse send i stack .frameReceived) := by
  have htaken := queueRequest_taken s
  rw [Api.sendFrameWithResponse, if_pos rfl]
  by_cases hrequest : s.port.serBuf 1 = request
  · rw [if_pos hrequest]
    rw [Api.queueRequest, if_pos hrequest] at htaken
    exact htaken.congr rfl rfl rfl rfl
  · rw [if_neg hrequest]
    rw [Api.queueRequest, if_neg hrequest] at htaken
    split
    · rename_i hcmd
      refine ⟨rfl, htaken.rxQueue, rfl, .inr ⟨hrequest, ?_⟩⟩
      rw [hcmd]
    · exact htaken.congr rfl rfl rfl rfl

theorem received_cases (h : s.received r expired = some s') :
    (r = .frameReceived → Taken s s') ∧ (r ≠ .frameReceived → Kept s s') := by
  unfold Api.received at h
  extract_lets waited at h
  have hwaited : r = .frameReceived → waited = .frameReceived := by
    rintro rfl
    rfl
  have hwaited' : r ≠ .frameReceived → waited ≠ .frameReceived := by
    intro hr
    show (if r = .idle then .rxTimeout else r) ≠ .frameReceived
    split
    · decide
    · exact hr
  split at h
  · -- SerialAPI_Poll
    cases h
    refine ⟨fun hr => ?_, fun hr => ?_⟩
    · rw [if_pos hr]
      exact queueRequest_taken s
    · rw [if_neg hr]
      exact ⟨rfl, rfl, rfl, rfl⟩
  · -- SendFrame, before it sends
    refine ⟨fun hr => ?_, fun hr => ?_⟩
    · rw [if_pos hr] at h
      cases h
      exact queueRequest_taken s
    · rw [if_neg hr] at h
      have hkept := kept_transmit h
      exact ⟨hkept.acked, hkept.rxQueue, hkept.dispatched, hkept.replies⟩
  · rename_i send i stack _
    cases h
    refine ⟨fun hr => ?_, fun hr => ?_⟩
    · rw [if_neg (by simp [hr]), hwaited hr]
      exact taken_sendFrame s send i stack
    · split
      · exact ⟨rfl, rfl, rfl, rfl⟩
      · exact kept_sendFrame s send i stack (hwaited' hr)
  · -- before a retransmission
    rename_i s₁ _ send i draining stack _
    cases h
    refine ⟨fun hr => ?_, fun hr => ?_⟩
    · have hs₁ : s₁ = s.queueRequest := if_pos hr
      rw [hs₁]
      exact (queueRequest_taken s).congr rfl rfl rfl rfl
    · have hs₁ : s₁ = s := if_neg hr
      rw [hs₁]
      exact ⟨rfl, rfl, rfl, rfl⟩
  · rename_i send i stack _
    cases h
    refine ⟨fun hr => ?_, fun hr => ?_⟩
    · rw [if_neg (by simp [hr]), hwaited hr]
      exact taken_sendFrameWithResponse s send i stack
    · split
      · exact ⟨rfl, rfl, rfl, rfl⟩
      · rw [Api.sendFrameWithResponse, if_neg (hwaited' hr)]
        exact ⟨rfl, rfl, rfl, rfl⟩
  · contradiction

theorem frame_getD {i : Nat} (hi : i < p.serBufLen.toNat) : p.frame.getD i 0 = p.serBuf i := by
  rw [Port.frame, List.getD_eq_getElem?_getD, Mem.getElem?_slice hi, Option.getD_some, Nat.zero_add]

theorem Orderly.conUpdate {more : Bytes} {rxExpired ackExpired : Bool} (hs : Orderly s)
    (hcalm : Calm s (.conUpdate more rxExpired ackExpired expired))
    (hp : SerialLink.conUpdate s.port more rxExpired ackExpired = some (r, p))
    (h : { s with port := p }.received r expired = some s') : Orderly s' := by
  obtain ⟨htaken, hkept⟩ := received_cases h
  obtain ⟨rfl, hacked, hlen, hmin⟩ | ⟨hr, hacked⟩ := conUpdate_cases hp
  · have htaken := htaken rfl
    have hmin : 3 ≤ p.serBufLen.toNat := UInt8.le_iff_toNat_le.mp hmin
    have htype : p.frame.getD 1 0 = p.serBuf 1 := frame_getD (by omega)
    have hcmd : p.frame.getD idxCmd 0 = p.serBuf idxCmd := frame_getD (by unfold idxCmd; omega)
    obtain ⟨-, hcase⟩ := hcalm p hp
    refine ⟨?_, fun reply hreply => ?_⟩
    · rw [htaken.acked, htaken.dispatched, htaken.rxQueue]
      show requests p.acked = s.dispatched ++ _
      rw [hacked, requests, List.filter_append, List.filter_cons, List.filter_nil, htype]
      obtain ⟨hrequest, hroom⟩ | hresponse := hcase
      · rw [Api.queueRequest, if_pos hrequest, Api.queueFrame, if_neg (Nat.not_le.mpr hroom), if_pos (by simpa using hrequest),
          ← List.append_assoc, ← hs.queued]
        rfl
      · have hnot : ¬p.serBuf 1 = request := by
          rw [hresponse]
          decide
        rw [Api.queueRequest, if_neg hnot, if_neg (by simpa using hnot), List.append_nil]
        exact hs.queued
    · have hold : ∀ r ∈ s.replies, r.2 ∈ s'.port.acked ∧ r.2.getD 1 0 = response ∧ r.2.getD idxCmd 0 = r.1 := by
        intro r hr
        obtain ⟨hmem, hfields⟩ := hs.replies r hr
        refine ⟨?_, hfields⟩
        rw [htaken.acked]
        show r.2 ∈ p.acked
        rw [hacked]
        exact List.mem_append_left _ hmem
      obtain hsame | ⟨hnot, hnew⟩ := htaken.replies
      · exact hold reply (hsame ▸ hreply)
      · rw [hnew, List.mem_append, List.mem_singleton] at hreply
        obtain hreply | rfl := hreply
        · exact hold reply hreply
        · have hframe : p.serBuf.slice 0 (p.serBuf 0).toNat = p.frame := by rw [hlen, Port.frame]
          obtain ⟨hrequest, -⟩ | hresponse := hcase
          · exact absurd hrequest hnot
          · refine ⟨?_, ?_, ?_⟩
            · rw [htaken.acked]
              show p.serBuf.slice 0 (p.serBuf 0).toNat ∈ p.acked
              rw [hframe, hacked]
              exact List.mem_append_right _ (List.mem_singleton_self _)
            · show (p.serBuf.slice 0 (p.serBuf 0).toNat).getD 1 0 = response
              rw [hframe, htype, hresponse]
            · show (p.serBuf.slice 0 (p.serBuf 0).toNat).getD idxCmd 0 = p.serBuf idxCmd
              rw [hframe, hcmd]
  · have hkept := hkept hr
    have hport : Kept s { s with port := p } := ⟨hacked, rfl, rfl, rfl⟩
    exact hkept.orderly (hport.orderly hs)

theorem Orderly.step {supportsCommand : UInt8 → Bool} {op : Op} (hs : Orderly s) (hcalm : Calm s op)
    (h : s.step supportsCommand op = some s') : Orderly s' := by
  cases op with
  | send send =>
    simp only [Api.step] at h
    split at h
    · cases h
      split
      · exact hs.restack _
      · exact hs
    · contradiction
  | poll =>
    simp only [Api.step] at h
    split at h
    · cases h
      unfold Api.poll
      split
      · exact hs.restack _
      · rename_i f rxQueue hqueue
        refine ⟨?_, hs.replies⟩
        show requests s.port.acked = s.dispatched ++ [f] ++ rxQueue
        rw [hs.queued, hqueue, List.append_assoc]
        rfl
    · contradiction
  | «return» =>
    simp only [Api.step] at h
    split at h
    · cases h
      exact hs.restack _
    · cases h
      exact hs.restack _
    · contradiction
  | conUpdate more rxExpired ackExpired expired =>
    obtain ⟨⟨r, p⟩, hp, h⟩ := Option.bind_eq_some_iff.mp h
    exact hs.conUpdate hcalm hp h
  | resend =>
    simp only [Api.step] at h
    split at h
    · exact (kept_transmit h).orderly (hs.restack _)
    · contradiction

def Op.isPoll : Op → Bool
  | .poll => true
  | _ => false

/-- What was acknowledged and dispatched stays so, and a call of `SerialAPI_Poll` dispatches the next frame. -/
theorem step_grows {supportsCommand : UInt8 → Bool} {op : Op} (h : s.step supportsCommand op = some s') :
    s.port.acked <+: s'.port.acked ∧ s'.dispatched = s.dispatched ++ if op.isPoll then s.rxQueue.take 1 else [] := by
  cases op with
  | send send =>
    simp only [Api.step] at h
    split at h
    · cases h
      split <;> exact ⟨List.prefix_rfl, (List.append_nil _).symm⟩
    · contradiction
  | poll =>
    simp only [Api.step] at h
    split at h
    · cases h
      unfold Api.poll
      split
      · rename_i hqueue
        rw [hqueue]
        exact ⟨List.prefix_rfl, (List.append_nil _).symm⟩
      · rename_i f rxQueue hqueue
        rw [hqueue]
        exact ⟨List.prefix_rfl, rfl⟩
    · contradiction
  | «return» =>
    simp only [Api.step] at h
    split at h
    · cases h
      exact ⟨List.prefix_rfl, (List.append_nil _).symm⟩
    · cases h
      exact ⟨List.prefix_rfl, (List.append_nil _).symm⟩
    · contradiction
  | conUpdate more rxExpired ackExpired expired =>
    obtain ⟨⟨r, p⟩, hp, h⟩ := Option.bind_eq_some_iff.mp h
    obtain ⟨htaken, hkept⟩ := received_cases h
    obtain ⟨rfl, hacked, -⟩ | ⟨hr, hacked⟩ := conUpdate_cases hp
    · refine ⟨?_, (htaken rfl).dispatched.trans (List.append_nil _).symm⟩
      rw [(htaken rfl).acked]
      exact hacked ▸ List.prefix_append _ _
    · refine ⟨?_, (hkept hr).dispatched.trans (List.append_nil _).symm⟩
      rw [(hkept hr).acked]
      exact hacked ▸ List.prefix_rfl
  | resend =>
    simp only [Api.step] at h
    split at h
    · have hkept := kept_transmit h
      exact ⟨hkept.acked ▸ List.prefix_rfl, hkept.dispatched.trans (List.append_nil _).symm⟩
    · contradiction

end Steps

/-- A run of the program from one state to another, all of whose steps meet a condition. -/
inductive Run (supportsCommand : UInt8 → Bool) (C : Api → Op → Prop) : Api → List Op → Api → Prop
  | nil (s : Api) : Run supportsCommand C s [] s
  | cons {s s' s'' : Api} (op : Op) {ops : List Op} (hop : C s op) (hstep : s.step supportsCommand op = some s')
      (next : Run supportsCommand C s' ops s'') : Run supportsCommand C s (op :: ops) s''

section Runs

variable {supportsCommand : UInt8 → Bool} {s s' : Api} {ops : List Op}

theorem Run.orderly (h : Run supportsCommand Calm s ops s') (hs : Orderly s) : Orderly s' := by
  induction h with
  | nil => exact hs
  | cons op hop hstep _ ih => exact ih (hs.step hop hstep)

/-- With a call of `SerialAPI_Poll` for each of them the frames are dispatched. -/
theorem Run.dispatches (h : Run supportsCommand Calm s ops s') (hs : Orderly s) {frames : List Bytes}
    (hframes : frames <+: requests s.port.acked)
    (hpolls : frames.length ≤ s.dispatched.length + ops.countP Op.isPoll) : frames <+: s'.dispatched := by
  induction h with
  | nil s => exact List.prefix_of_prefix_length_le hframes (hs.queued ▸ List.prefix_append _ _) hpolls
  | @cons s s' s'' op ops hop hstep _ ih =>
    obtain ⟨hacked, hdispatched⟩ := step_grows hstep
    have hle := hframes.length_le
    rw [hs.queued, List.length_append] at hle
    refine ih (hs.step hop hstep) (hframes.trans (hacked.filter _)) ?_
    rw [List.countP_cons] at hpolls
    rw [hdispatched, List.length_append]
    split
    · rename_i hpoll
      rw [if_pos hpoll] at hpolls
      rw [List.length_take]
      omega
    · rename_i hpoll
      rw [if_neg hpoll] at hpolls
      exact Nat.le_trans hpolls (by simp)

/-- A frame of at most 250 bytes of data is sent right, and no longer one. In a run in which every request that
comes finds room in the queue, the acknowledged requests are dispatched in their order, each once, as soon as there
are calls of `SerialAPI_Poll` for them, and a reply is the response to its command. -/
theorem link_sound (supportsCommand : UInt8 → Bool) :
    (∀ cmd type buf, buf.length < 256 → (SentRight cmd type buf ↔ buf.length ≤ 250)) ∧
      ∀ ops s, Run supportsCommand Calm .init ops s → Orderly s ∧
        ∀ later s', Run supportsCommand Calm s later s' → s.rxQueue.length ≤ later.countP Op.isPoll →
          requests s.port.acked <+: s'.dispatched := by
  refine ⟨fun cmd type buf hlen => sentRight_iff hlen, fun ops s hrun => ?_⟩
  have hs : Orderly s := hrun.orderly ⟨rfl, fun r hr => absurd hr List.not_mem_nil⟩
  refine ⟨hs, fun later s' hlater hpolls => hlater.dispatches hs List.prefix_rfl ?_⟩
  rw [hs.queued, List.length_append]
  omega

theorem run_of_foldlM {C : Api → Op → Prop} (hC : ∀ s op, C s op) (h : ops.foldlM (Api.step supportsCommand) s = some s') :
    Run supportsCommand C s ops s' := by
  induction ops generalizing s with
  | nil =>
    cases h
    exact .nil _
  | cons op ops ih =>
    obtain ⟨s₁, hstep, hrest⟩ := Option.bind_eq_some_iff.mp h
    exact .cons op (hC s op) hstep (ih hrest)

end Runs

/-- A request for `FUNC_ID_APPLICATION_COMMAND_HANDLER` without data. -/
def shortRequest : Bytes := [0x01, 0x03, 0x00, 0x04, 0xF8]

theorem link_sound_shortRequest : SentRight 0x13 request [1, 2] ∧
    ∃ s, Run (fun _ => true) Calm .init [.poll, .conUpdate shortRequest false false false] s ∧
      requests s.port.acked = s.dispatched ++ s.rxQueue ∧ s.port.acked.length = 1 := by
  have hsound := link_sound fun _ => true
  refine ⟨(hsound.1 0x13 request [1, 2] (by decide)).mpr (by decide), ?_⟩
  have hcalm : Calm (Api.poll .init) (.conUpdate shortRequest false false false) := by
    intro p hp
    cases hp
    exact ⟨by decide, .inl ⟨rfl, by decide⟩⟩
  have hrun : Run (fun _ => true) Calm .init [.poll, .conUpdate shortRequest false false false] _ :=
    .cons .poll trivial rfl (.cons _ hcalm rfl (.nil _))
  exact ⟨_, hrun, (hsound.2 _ _ hrun).1.queued, rfl⟩

/-- Eleven requests come while `SerialAPI_Poll` drains the line: the last one is acknowledged and lost. -/
theorem eleventh_request_lost : ¬∀ (supportsCommand : UInt8 → Bool) (ops : List Op) (s : Api),
      Run supportsCommand (fun _ _ => True) .init ops s → Orderly s := by
  intro hall
  obtain ⟨s, hrun, hlost⟩ : ∃ s, (Op.poll :: List.replicate 11 (.conUpdate shortRequest false false false)).foldlM
      (Api.step fun _ => true) .init = some s ∧ requests s.port.acked ≠ s.dispatched ++ s.rxQueue :=
    ⟨_, rfl, by decide⟩
  exact hlost (hall _ _ _ (run_of_foldlM (fun _ _ => trivial) hrun)).queued

end ZipGateway.SerialLink
