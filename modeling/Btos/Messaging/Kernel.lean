import Btos.Lib.Heap
import Btos.Lib.OrderedMap

/-!
# Processes, message headers and the header pool

The data the messaging code of the kernel works on (`messaging.cpp`, the message queues and
buffers of `process.cpp`):

* `MsgHeader` is `bt_msg_header`. Headers live in heap blocks, so a queue and the pool hold
  pointers and `Kernel.headers` is the memory behind them.
* `Process` is the part of `proc_process` that messaging uses: the queue `msgQ` of pointers to
  headers, and `msgBuffers`, the contents of the user messages that the process has sent and
  that have not been acknowledged yet, by receiver.
* `Kernel` holds the process table, the header pool, the subscribers and the id counter.

Two fields of `Kernel` are history variables that no function reads: `sent` and `acked` record
the messages that were put in a queue and those that were taken out by an acknowledgement.

Contents are known by their address, their block and their length; their bytes play no part.
-/

namespace Messaging

open Heap

/-- `pid_t`. -/
abbrev Pid := ℕ

/-- `bt_msg_flags::UserSpace`. -/
def flagUserSpace : BitVec 32 := 1#32

/-- `bt_msg_flags::Reply`. -/
def flagReply : BitVec 32 := 2#32

/-- `BT_MSG_MAX`, as the kernel sees it. -/
def btMsgMax : ℕ := 4096

/-- `bt_msg_header`. -/
structure MsgHeader where
  valid : Bool
  id : ℕ
  replyId : ℕ
  flags : BitVec 32
  source : BitVec 16
  fromPid : Pid
  toPid : Pid
  type : BitVec 32
  length : ℕ
  critical : Bool
  recieved : Bool
  replied : Bool
  content : Ptr
  deriving DecidableEq, Repr, Inhabited

/-- `sizeof(bt_msg_header)` on the i386 ABI, where 64-bit members are aligned to 4 bytes. -/
def sizeofMsgHeader : ℕ := 60

namespace MsgHeader

/-- `flags & bt_msg_flags::Reply`. -/
def isReply (h : MsgHeader) : Bool := h.flags &&& flagReply ≠ 0

/-- `flags & bt_msg_flags::UserSpace`. -/
def isUserSpace (h : MsgHeader) : Bool := h.flags &&& flagUserSpace ≠ 0

/-- The messages whose content `msg_acknowledge` releases through `proc_free_message_buffer`:
sent from user space and not replies. -/
def isBuffered (h : MsgHeader) : Bool := !h.isReply && h.isUserSpace

end MsgHeader

/-- The values of `bt_proc_status` that a listed process can have. `Ended` and `DoesNotExist`,
which are one value, are only ever reported, for a pid that is not listed. -/
inductive ProcStatus where
  | running
  | ending
  | starting
  deriving DecidableEq, Repr

/-- `bt_kernel_messages`. -/
inductive KernelMessage where
  | processStart
  | processEnd
  | messageReceipt
  deriving DecidableEq, Repr

/-- The value of a kernel message type in the `type` field of a header. -/
def KernelMessage.code : KernelMessage → BitVec 32
  | processStart => 1#32
  | processEnd => 2#32
  | messageReceipt => 3#32

/-- The fields of `proc_process` that messaging uses. -/
structure Process where
  parent : Pid
  status : ProcStatus
  /-- `msg_buffers`: receiver and content of each outstanding user message. -/
  msgBuffers : OrderedMap Pid Ptr
  /-- `msg_q`. -/
  msgQ : List Ptr
  deriving DecidableEq, Repr

/-- The state messaging works on. -/
structure Kernel where
  /-- `proc_processes`, by pid. -/
  procs : Pid → Option Process
  /-- `proc_current_pid`. -/
  currentPid : Pid
  /-- The memory of the header blocks. -/
  headers : Ptr → MsgHeader
  /-- `header_pool`. -/
  headerPool : List Ptr
  /-- `msg_subscribers`. -/
  subscribers : OrderedMap Pid (List KernelMessage)
  /-- `id_counter`, a 64-bit counter. -/
  idCounter : ℕ
  /-- The calls of `malloc` and `free` so far. -/
  heap : List Heap.Event
  /-- `debugger_pid`. -/
  debuggerPid : Pid
  /-- `debug_ext_id`. -/
  debugExtId : BitVec 16
  /-- History: id and receiver of every message put in a queue, latest first. -/
  sent : List (ℕ × Pid)
  /-- History: id of every message taken out by an acknowledgement, latest first. -/
  acked : List ℕ

/-- `pool_min`. -/
def poolMin : ℕ := 16

/-- `pool_max`. -/
def poolMax : ℕ := poolMin * 2

namespace Kernel

variable (A : Allocator) (s : Kernel)

/-! ## Processes -/

/-- `proc_get_status`; `none` is `DoesNotExist`. -/
def procGetStatus (pid : Pid) : Option ProcStatus := (s.procs pid).map Process.status

/-- The process of a pid is listed. -/
def Alive (pid : Pid) : Prop := (s.procs pid).isSome

instance (pid : Pid) : Decidable (s.Alive pid) := inferInstanceAs (Decidable (_ = true))

/-- Update of a listed process through the pointer `proc_get` returns. -/
def modifyProc (pid : Pid) (f : Process → Process) : Kernel :=
  { s with procs := fun q => if q = pid then (s.procs q).map f else s.procs q }

/-- The queue of a process; `proc_get_msg(i, pid)` is its `i`-th element, and finds nothing
when there is no such process. -/
def queue (pid : Pid) : List Ptr :=
  match s.procs pid with
  | none => []
  | some p => p.msgQ

/-- The content a process has outstanding for a receiver. -/
def msgBuffer (pid topid : Pid) : Option Ptr :=
  match s.procs pid with
  | none => none
  | some p => p.msgBuffers.lookup topid

/-- `proc_add_msg`. -/
def procAddMsg (msg : Ptr) : Kernel :=
  s.modifyProc (s.headers msg).toPid fun p => { p with msgQ := p.msgQ ++ [msg] }

/-- `proc_remove_msg`. -/
def procRemoveMsg (msg : Ptr) : Kernel :=
  s.modifyProc (s.headers msg).toPid fun p => { p with msgQ := p.msgQ.erase msg }

/-- `proc_free_message_buffer`. -/
def procFreeMessageBuffer (topid pid : Pid) : Kernel :=
  match s.procs pid with
  | none => s
  | some p =>
      let s' := s.modifyProc pid fun p => { p with msgBuffers := p.msgBuffers.erase topid }
      match p.msgBuffers.lookup topid with
      | none => s'
      | some ptr => if ptr = 0 then s' else { s' with heap := free s'.heap ptr }

/-! ## The header pool -/

/-- The loops that put `n` new blocks in the pool. -/
def growPool : ℕ → Kernel → Kernel
  | 0, s => s
  | n + 1, s =>
      growPool n { s with
        headerPool := s.headerPool ++ [A.choose s.heap sizeofMsgHeader]
        heap := A.malloc s.heap sizeofMsgHeader }

/-- `copy_msg_header`: a block of the pool with the header copied into it. -/
def copyMsgHeader (h : MsgHeader) : Ptr × Kernel :=
  let s := if s.headerPool = [] then growPool A poolMin s else s
  match s.headerPool.getLast? with
  | none => (0, s)
  | some ret =>
      (ret, { s with
        headerPool := s.headerPool.dropLast
        headers := Function.update s.headers ret h })

/-- The loop of `release_msg_header` that frees the blocks of the pool from the back, down to
index `poolMin`. -/
def trimPool : ℕ → Kernel → Kernel
  | 0, s => s
  | n + 1, s =>
      match s.headerPool.getLast? with
      | none => s
      | some p =>
          trimPool n { s with headerPool := s.headerPool.dropLast, heap := free s.heap p }

/-- `release_msg_header`. -/
def releaseMsgHeader (h : Ptr) : Kernel :=
  if poolMax ≤ s.headerPool.length then
    trimPool (s.headerPool.length - 1 - poolMin) { s with heap := free s.heap h }
  else { s with headerPool := s.headerPool ++ [h] }

end Kernel

end Messaging
