import Btos.Messaging.Kernel

/-!
# Sending, receiving and acknowledging messages

The functions of `messaging.cpp`, the message functions of `process.cpp` and the senders of
`debug_ext.cpp`, as functions on `Kernel`. The lock-protected sections of `msg_send` are
separate definitions (`msgGet`, `markReplied`, `msgEnqueue`), of which `msgSend` is the
composition when nothing runs in between.

A `bt_msg_header` that the source declares on the stack and fills in only partly keeps what the
stack held before in its other fields: the functions that declare one take that left-over
header as the parameter `junk`, by receiver.

Calls of the scheduler and the message status of the running thread are left out: they change
nothing in `Kernel`.
-/

namespace Messaging.Kernel

open Heap

variable (A : Allocator) (junk : Pid → MsgHeader) (s : Kernel)

/-! ## Sending -/

/-- The check at the start of `msg_send`: the receiver is the kernel or exists. -/
def destinationExists (msg : MsgHeader) : Bool :=
  !(msg.toPid ≠ 0 && s.procGetStatus msg.toPid = none)

/-- The search by id in a queue that `msg_get` and `msg_acknowledge` share: the block of the
first message that has the id. -/
def findMsg (id : ℕ) (pid : Pid) : Option Ptr :=
  (s.queue pid).find? fun c => (s.headers c).id = id

/-- `msg_get`: a copy of the first message of a queue that has the id. -/
def msgGet (id : ℕ) (pid : Pid) : Option MsgHeader := (s.findMsg id pid).map s.headers

/-- The checks of `msg_send` on the message a reply answers. -/
def replyAllowed (msg prev : MsgHeader) : Bool :=
  prev.toPid = msg.fromPid && prev.fromPid = msg.toPid && !prev.replied

/-- The section of `msg_send` that marks the answered message in the queue of the sender. -/
def markReplied (pid : Pid) (id : ℕ) : Kernel :=
  { s with headers := fun c =>
      if c ∈ s.queue pid ∧ (s.headers c).id = id then { s.headers c with replied := true }
      else s.headers c }

/-- The last section of `msg_send`: number the message, copy it into a header block and put it
in the queue of its receiver. -/
def msgEnqueue (msg : MsgHeader) : ℕ × Kernel :=
  let id := (s.idCounter + 1) % 2 ^ 64
  let (ptr, s') := copyMsgHeader A { s with idCounter := id }
    { msg with id := id, valid := true, recieved := false, replied := false }
  (id, { s'.procAddMsg ptr with sent := (id, msg.toPid) :: s'.sent })

/-- `msg_send`, run without interruption. The result is the id of the message, `0` when it was
not accepted. -/
def msgSend (msg : MsgHeader) : ℕ × Kernel :=
  if !s.destinationExists msg then (0, s)
  else if msg.isReply then
    match s.msgGet msg.replyId s.currentPid with
    | none => (0, s)
    | some prev =>
        if !replyAllowed msg prev then (0, s)
        else msgEnqueue A (s.markReplied msg.fromPid prev.id) msg
  else msgEnqueue A s msg

/-- What `msg_send_receipt` puts in the header it sends. -/
def receiptHeader (pid : Pid) (content : Ptr) : MsgHeader :=
  { junk pid with
    type := KernelMessage.messageReceipt.code
    toPid := pid
    content := content
    source := 0
    fromPid := 0
    flags := 0
    critical := false
    length := sizeofMsgHeader }

/-- What `msg_send_event` puts in the header it sends; the length is not among it. -/
def eventHeader (message : KernelMessage) (pid : Pid) (content : Ptr) : MsgHeader :=
  { junk pid with
    type := message.code
    toPid := pid
    content := content
    source := 0
    fromPid := 0
    flags := 0
    critical := false }

/-- The two loops over the subscribers: each one that `wants` the message is sent the header
`make` builds for it, with a new block of `size` bytes as content. -/
def sendToSubscribers (wants : Pid → List KernelMessage → Bool) (size : ℕ)
    (make : Pid → Ptr → MsgHeader) : List (Pid × List KernelMessage) → Kernel → Kernel
  | [], s => s
  | (pid, messages) :: rest, s =>
      sendToSubscribers wants size make rest
        (if wants pid messages then
          (msgSend A { s with heap := A.malloc s.heap size }
            (make pid (A.choose s.heap size))).2
        else s)

/-- `msg_send_receipt`. -/
def msgSendReceipt (omsg : MsgHeader) : Kernel :=
  sendToSubscribers A
    (fun pid messages => pid = omsg.fromPid && messages.contains .messageReceipt)
    sizeofMsgHeader (receiptHeader junk) s.subscribers.entries s

/-- `msg_send_event`. -/
def msgSendEvent (message : KernelMessage) (size : ℕ) : Kernel :=
  sendToSubscribers A (fun _ messages => messages.contains message) size
    (eventHeader junk message) s.subscribers.entries s

/-- `sizeof(bt_debug_event_msg)`. -/
def sizeofDebugEventMsg : ℕ := 24

/-- The header `debug_event_notify` sends: its content is the local variable `content`, at
`stackPtr`. -/
def debugHeader (stackPtr : Ptr) : MsgHeader :=
  { junk s.debuggerPid with
    fromPid := 0
    source := s.debugExtId
    toPid := s.debuggerPid
    flags := 0
    type := 1
    length := sizeofDebugEventMsg
    content := stackPtr }

/-- The condition under which `debug_event_notify` sends. -/
def debugEventSends (pid : Pid) : Bool :=
  s.debuggerPid ≠ 0 && s.debuggerPid ≠ pid && s.procGetStatus pid = some .running &&
    s.procGetStatus s.debuggerPid = some .running

/-- `debug_event_notify` up to the point where it waits for the reply, which it then
acknowledges like any other message. -/
def debugEventNotify (pid : Pid) (stackPtr : Ptr) : Kernel :=
  if s.debugEventSends pid then (msgSend A s (s.debugHeader junk stackPtr)).2 else s

/-- What `proc_send_message` does when it is called: it sends the message, or it cannot
before the content outstanding for the receiver is released. -/
inductive SendResult where
  /-- The message must wait. -/
  | blocked
  /-- `proc_send_message` returned. -/
  | returned (id : ℕ)
  deriving DecidableEq, Repr

/-- `proc_send_message`, called for process `pid`. -/
def procSendMessage (header : MsgHeader) (pid : Pid) : SendResult × Kernel :=
  if header.isReply then
    let (id, s') := msgSend A { s with heap := A.malloc s.heap header.length }
      { header with content := A.choose s.heap header.length }
    (.returned id, s')
  else if !decide (s.Alive pid) || !decide (s.Alive header.toPid) then (.returned 0, s)
  else if (s.msgBuffer pid header.toPid).isSome then (.blocked, s)
  else
    let content := A.choose s.heap header.length
    let s₁ : Kernel := { s with heap := A.malloc s.heap header.length }
    let s₂ := s₁.modifyProc pid fun p =>
      { p with msgBuffers := p.msgBuffers.put header.toPid content }
    let (id, s') := msgSend A s₂ { header with content := content }
    (.returned id, s')

/-- What the `BT_SEND` handler makes of the header it copied from user memory. -/
def userHeader (header : MsgHeader) : MsgHeader :=
  { header with
    flags := header.flags ||| flagUserSpace
    fromPid := s.currentPid
    critical := false }

/-- The `BT_SEND` handler once it has copied the header: `none` when the content is too long,
otherwise the outcome of `proc_send_message`. -/
def btSend (header : MsgHeader) : Option (SendResult × Kernel) :=
  if btMsgMax < header.length then none
  else some (procSendMessage A s (s.userHeader header) s.currentPid)

/-! ## Receiving -/

/-- `msg_recv`. -/
def msgRecv (pid : Pid) : Option MsgHeader × Kernel :=
  match s.queue pid with
  | [] => (none, s)
  | c :: _ =>
      (some (s.headers c),
        { s with headers := Function.update s.headers c { s.headers c with recieved := true } })

/-- `bt_msg_filter`. -/
structure Filter where
  flags : BitVec 32
  pid : Pid
  replyTo : ℕ
  type : BitVec 32
  source : BitVec 32
  deriving DecidableEq, Repr

/-- `msg_is_match`. -/
def msgIsMatch (msg : MsgHeader) (filter : Filter) : Bool :=
  msg.critical ||
    let ret :=
      !(filter.flags &&& (1#32 <<< 4) ≠ 0 && msg.isReply) &&
      !(filter.flags &&& (1#32 <<< 0) ≠ 0 && msg.fromPid ≠ filter.pid) &&
      !(filter.flags &&& (1#32 <<< 1) ≠ 0 && msg.replyId ≠ filter.replyTo) &&
      !(filter.flags &&& (1#32 <<< 2) ≠ 0 && msg.type ≠ filter.type) &&
      !(filter.flags &&& (1#32 <<< 3) ≠ 0 && msg.source.setWidth 32 ≠ filter.source)
    if filter.flags &&& (1#32 <<< 31) ≠ 0 then !ret else ret

/-- The scan of `msg_recv_filtered` over the queue of the running process; `none` when it finds
nothing and the caller blocks. -/
def msgRecvFiltered (filter : Filter) (pid : Pid) : Option MsgHeader :=
  ((s.queue s.currentPid).find? fun c =>
    (s.headers c).toPid = pid && msgIsMatch (s.headers c) filter).map s.headers

/-- What `msg_getcontent` copies: the message it found and the number of bytes, `none` when
there is no such message. -/
def msgGetcontent (msg : MsgHeader) (buffersize : ℕ) : Option (MsgHeader × ℕ) :=
  (s.msgGet msg.id msg.toPid).map fun r =>
    (r, if r.length < buffersize then r.length else buffersize)

/-! ## Acknowledging -/

/-- What the locked section of `msg_acknowledge` does with the block it found. -/
def dequeue (c : Ptr) : Kernel :=
  let s' := (s.procRemoveMsg c).releaseMsgHeader c
  { s' with acked := (s.headers c).id :: s'.acked }

/-- The locked section of `msg_acknowledge`: the message is looked up and taken out. -/
def ackSection (msg : MsgHeader) : Kernel :=
  match s.findMsg msg.id msg.toPid with
  | none => s
  | some c => s.dequeue c

/-- The release of the content in `msg_acknowledge`. -/
def releaseContent (header : MsgHeader) : Kernel :=
  if header.isBuffered then s.procFreeMessageBuffer header.toPid header.fromPid
  else { s with heap := free s.heap header.content }

/-- `msg_acknowledge`. -/
def msgAcknowledge (msg : MsgHeader) : Kernel :=
  match s.findMsg msg.id msg.toPid with
  | none => s
  | some c =>
      let header := s.headers c
      let s' := s.ackSection msg
      if header.content = 0 then s'
      else msgSendReceipt A junk (s'.releaseContent header) header

/-! ## The end of a process -/

/-- `msg_clear`. `none` stands for the panic: the function holds `msg_lock`, which
`msg_send_receipt` takes exclusively again as soon as one acknowledged message had a content.
A message without content is acknowledged, and the next index is tried. -/
def msgClearLoop (pid : Pid) : ℕ → ℕ → Kernel → Option Kernel
  | 0, _, s => some s
  | n + 1, i, s =>
      match (s.queue pid)[i]? with
      | none => some s
      | some c =>
          if (s.headers c).content ≠ 0 then none
          else msgClearLoop pid n (i + 1) (s.dequeue c)

/-- `msg_clear`. -/
def msgClear (pid : Pid) : Option Kernel :=
  (msgClearLoop pid (s.queue pid).length 0 s).map fun s =>
    { s with subscribers := s.subscribers.erase pid }

/-- The part of `proc_end` that takes the process out of the list: the running process becomes
the kernel if it was this one, and the children go to the parent. -/
def unlist (pid : Pid) : Kernel :=
  { s with
    currentPid := if s.currentPid = pid then 0 else s.currentPid
    procs := fun q =>
      if q = pid then none
      else (s.procs q).map fun p =>
        if p.parent = pid then
          { p with parent := (s.procs pid).elim 0 Process.parent }
        else p }

/-- `proc_end`, without the handles of the process. `none`: another thread is ending the
process, and the caller waits for it. -/
def procEnd (pid : Pid) (stackPtr : Ptr) : Option Kernel :=
  if pid = 0 ∨ s.procGetStatus pid = none then some s
  else if s.procGetStatus pid = some .ending then none
  else
    let s := debugEventNotify A junk s pid stackPtr
    (msgClear (s.unlist pid) pid).map fun s => msgSendEvent A junk s .processEnd 8

/-- `proc_message_wait`: whether it returns at once. -/
def procMessageWait (pid : Pid) : Bool :=
  match s.procs pid with
  | none => true
  | some p => p.msgBuffers.entries.isEmpty

end Messaging.Kernel
