import Btos.Messaging.Runs

/-!
# At most one reply

`msg_send` reads the message that a reply answers in one locked section (`msg_get`), marks it as
replied in a second one and puts the reply in a queue in a third. Here the threads of one process
run these sections in any order: `Section` is where a thread is in `msg_send`, and `repliers` is
the transition system of their interleavings.

* `run_sections`: one thread alone does what `msgSend` does.

Main results: `atMostOneReply_of_reaches` and `exists_two_replies`.
-/

open List Option Bool

namespace Messaging

open Heap Kernel

variable {A : Allocator}

/-- Where a thread is in `msg_send`. -/
inductive Section where
  /-- Not in `msg_send`. -/
  | idle
  /-- The receiver was checked; a reply calls `msg_get` next. -/
  | checked (msg : MsgHeader)
  /-- `msg_get` returned `prev`, which passed the checks; the section that marks it is next. -/
  | read (msg prev : MsgHeader)
  /-- The section that puts the message in a queue is next. -/
  | ready (msg : MsgHeader)
  deriving DecidableEq, Repr

/-- The threads of the running process, on their way through `msg_send`. -/
structure Repliers where
  kernel : Kernel
  threads : ℕ → Section
  /-- History: the replies that were put in a queue, latest first. -/
  accepted : List MsgHeader

/-- One section, run by a thread. -/
inductive ReplyAction where
  /-- Call `msg_send`, up to the check of the receiver. -/
  | call (t : ℕ) (msg : MsgHeader)
  /-- `msg_get` and the checks on what it returns. -/
  | get (t : ℕ)
  /-- The section that marks the answered message. -/
  | mark (t : ℕ)
  /-- The section that puts the message in a queue. -/
  | enqueue (t : ℕ)
  deriving DecidableEq, Repr

namespace Repliers

variable {st st' : Repliers}

/-- A thread moves on. -/
def set (st : Repliers) (t : ℕ) (x : Section) : Repliers :=
  { st with threads := Function.update st.threads t x }

/-- What follows the check of the receiver: a reply reads the message it answers. -/
def afterCheck (st : Repliers) (msg : MsgHeader) : Section :=
  if msg.isReply then
    match st.kernel.msgGet msg.replyId st.kernel.currentPid with
    | none => .idle
    | some prev => if replyAllowed msg prev then .read msg prev else .idle
  else .ready msg

/-- One section of `msg_send`. -/
def step (A : Allocator) (st : Repliers) : ReplyAction → Option Repliers
  | .call t msg =>
      match st.threads t with
      | .idle =>
          some (st.set t (if st.kernel.destinationExists msg then .checked msg else .idle))
      | _ => none
  | .get t =>
      match st.threads t with
      | .checked msg => some (st.set t (st.afterCheck msg))
      | _ => none
  | .mark t =>
      match st.threads t with
      | .read msg prev =>
          some ({ st with kernel := st.kernel.markReplied msg.fromPid prev.id }.set t (.ready msg))
      | _ => none
  | .enqueue t =>
      match st.threads t with
      | .ready msg =>
          some ({ st with
            kernel := (msgEnqueue A st.kernel msg).2
            accepted := if msg.isReply then msg :: st.accepted else st.accepted }.set t .idle)
      | _ => none

/-- No thread is in `msg_send` yet. -/
structure Initial (st : Repliers) : Prop where
  headerInv : HeaderInv st.kernel
  idle : ∀ t, st.threads t = .idle
  accepted_nil : st.accepted = []

/-- The message with an id in the queue of the running process. -/
def original (st : Repliers) (r : ℕ) : Option MsgHeader :=
  st.kernel.msgGet r st.kernel.currentPid

/-- No two accepted replies answer one message, and each one goes the other way between the two
processes of the message it answers. -/
def AtMostOneReply (st : Repliers) : Prop :=
  (st.accepted.map MsgHeader.replyId).Nodup ∧
    ∀ msg ∈ st.accepted, ∃ orig, st.original msg.replyId = some orig ∧
      orig.toPid = msg.fromPid ∧ orig.fromPid = msg.toPid

end Repliers

/-- The interleavings of the sections of `msg_send`. -/
def repliers (A : Allocator) : System Repliers ReplyAction where
  init := Repliers.Initial
  step := Repliers.step A

/-! ## The sections and `msg_get` -/

namespace Kernel

variable {s s' : Kernel}

lemma id_of_msgGet {r : ℕ} {q : Pid} {h : MsgHeader} (hg : s.msgGet r q = some h) : h.id = r := by
  obtain ⟨c, hc, rfl⟩ := map_eq_some_iff.mp hg
  exact (mem_queue_of_findMsg hc).2

/-- A message put in a queue does not hide the ones before it. -/
lemma Enqueued.msgGet_eq {msg : MsgHeader} {c : Ptr} (he : Enqueued s s' msg c) {r : ℕ}
    {q : Pid} {h : MsgHeader} (hg : s.msgGet r q = some h) : s'.msgGet r q = some h := by
  obtain ⟨p, hp, rfl⟩ := map_eq_some_iff.mp hg
  have hold : ∀ p ∈ s.queue q, s'.headers p = s.headers p := fun p hp =>
    he.header_old p fun heq => he.block_not_queue q (heq ▸ hp)
  have hfind : (s.queue q).find? (fun c => (s'.headers c).id = r) = some p := by
    rw [← hp, findMsg]
    exact find?_congr fun c hc => by rw [hold c hc]
  have hfind' : s'.findMsg r q = some p := by
    rw [findMsg, he.queue_eq]
    split
    · rw [find?_append, hfind]
      rfl
    · exact hfind
  rw [msgGet, hfind', map_some, hold p (mem_queue_of_findMsg hp).1]

/-- The section that marks the answered message changes what `msg_get` returns for its id, in
that queue. -/
lemma msgGet_markReplied (r : ℕ) (pid : Pid) (id : ℕ) :
    (s.markReplied pid id).msgGet r pid =
      (s.msgGet r pid).map fun h => if h.id = id then { h with replied := true } else h := by
  have hid : ∀ c, ((s.markReplied pid id).headers c).id = (s.headers c).id := by
    intro c
    simp only [markReplied]
    split <;> rfl
  have hfind : (s.markReplied pid id).findMsg r pid = s.findMsg r pid := by
    rw [findMsg, findMsg]
    refine find?_congr fun c _ => ?_
    rw [hid]
  rw [msgGet, msgGet, hfind, Option.map_map]
  refine map_congr fun c hc => ?_
  have hmem : c ∈ s.queue pid := (mem_queue_of_findMsg hc).1
  by_cases hc : (s.headers c).id = id
  · simp [markReplied, hmem, hc]
  · simp [markReplied, hc]

end Kernel

namespace Repliers

variable {st st' : Repliers} {msg prev : MsgHeader} {t : ℕ}

theorem run_sections (ht : st.threads t = .idle)
    (hd : st.kernel.destinationExists msg = true) (hr : msg.isReply = true)
    (hg : st.original msg.replyId = some prev) (ha : replyAllowed msg prev = true) :
    ((repliers A).run st [.call t msg, .get t, .mark t, .enqueue t]).map Repliers.kernel =
      some (msgSend A st.kernel msg).2 := by
  rw [original] at hg
  have hsend : msgSend A st.kernel msg =
      msgEnqueue A (st.kernel.markReplied msg.fromPid prev.id) msg := by
    simp [msgSend, hd, hr, hg, ha]
  simp [hsend, repliers, System.run, step, ht, hd, set, afterCheck, hr, hg, ha]

/-! ## The invariant -/

/-- The message that `msg` answers is queued, went the other way, and is marked as replied or
not. -/
def Answers (st : Repliers) (msg : MsgHeader) (replied : Bool) : Prop :=
  ∃ orig, st.original msg.replyId = some orig ∧ orig.toPid = msg.fromPid ∧
    orig.fromPid = msg.toPid ∧ orig.replied = replied

lemma Answers.replyId_ne {msg msg' : MsgHeader} (h : st.Answers msg true)
    (h' : st.Answers msg' false) : msg.replyId ≠ msg'.replyId := by
  intro heq
  obtain ⟨o, ho, -, -, hrep⟩ := h
  obtain ⟨o', ho', -, -, hrep'⟩ := h'
  rw [heq, ho', some.injEq] at ho
  rw [← ho, hrep'] at hrep
  cases hrep

/-- Of the threads and accepted replies that answer one message, at most one is past its reading
of it; the message is marked as soon as that one has marked it. -/
structure Inv (st : Repliers) : Prop where
  headerInv : HeaderInv st.kernel
  read : ∀ t msg prev, st.threads t = .read msg prev → st.Answers msg false ∧
    prev.id = msg.replyId ∧ msg.fromPid = st.kernel.currentPid
  ready : ∀ t msg, st.threads t = .ready msg → msg.isReply → st.Answers msg true
  accepted : ∀ msg ∈ st.accepted, st.Answers msg true
  read_unique : ∀ t t' msg prev msg' prev', st.threads t = .read msg prev →
    st.threads t' = .read msg' prev' → msg.replyId = msg'.replyId → t = t'
  ready_unique : ∀ t t' msg msg', st.threads t = .ready msg → st.threads t' = .ready msg' →
    msg.isReply → msg'.isReply → msg.replyId = msg'.replyId → t = t'
  ready_not_accepted : ∀ t msg, st.threads t = .ready msg → msg.isReply →
    ∀ msg' ∈ st.accepted, msg'.replyId ≠ msg.replyId
  accepted_nodup : (st.accepted.map MsgHeader.replyId).Nodup

lemma Inv.atMostOneReply (h : Inv st) : AtMostOneReply st := by
  refine ⟨h.accepted_nodup, fun msg hmsg => ?_⟩
  obtain ⟨orig, ho, hto, hfrom, -⟩ := h.accepted msg hmsg
  exact ⟨orig, ho, hto, hfrom⟩

lemma Initial.inv (h : Initial st) : Inv st where
  headerInv := h.headerInv
  read t msg prev ht := by rw [h.idle t] at ht; cases ht
  ready t msg ht := by rw [h.idle t] at ht; cases ht
  accepted msg hmsg := by rw [h.accepted_nil] at hmsg; cases hmsg
  read_unique t t' msg prev msg' prev' ht := by rw [h.idle t] at ht; cases ht
  ready_unique t t' msg msg' ht := by rw [h.idle t] at ht; cases ht
  ready_not_accepted t msg ht := by rw [h.idle t] at ht; cases ht
  accepted_nodup := by rw [h.accepted_nil]; exact nodup_nil

lemma threads_set {t t' : ℕ} {x y : Section} (h : (st.set t x).threads t' = y) :
    (t' = t ∧ x = y) ∨ (t' ≠ t ∧ st.threads t' = y) := by
  by_cases ht : t' = t
  · subst ht
    simp only [set, Function.update_self] at h
    exact .inl ⟨rfl, h⟩
  · simp only [set, Function.update_of_ne ht] at h
    exact .inr ⟨ht, h⟩

lemma threads_of_set {t t' : ℕ} {x y : Section} (h : (st.set t x).threads t' = y) (hne : x ≠ y) :
    t' ≠ t ∧ st.threads t' = y :=
  (threads_set h).resolve_left fun heq => hne heq.2

/-- A thread moves to a place where it has no claim on a message. -/
lemma Inv.set (h : Inv st) (t : ℕ) {x : Section} (hread : ∀ msg prev, x ≠ .read msg prev)
    (hready : ∀ msg, x = .ready msg → msg.isReply = false) : Inv (st.set t x) where
  __ := h
  read t' msg prev ht' := by
    rcases threads_set ht' with ⟨-, hx⟩ | ⟨-, ht'⟩
    · exact absurd hx (hread msg prev)
    · exact h.read t' msg prev ht'
  ready t' msg ht' hr := by
    rcases threads_set ht' with ⟨-, hx⟩ | ⟨-, ht'⟩
    · rw [hready msg hx] at hr
      cases hr
    · exact h.ready t' msg ht' hr
  read_unique t1 t2 msg prev msg' prev' h1 h2 heq := by
    rcases threads_set h1 with ⟨-, hx⟩ | ⟨-, h1⟩
    · exact absurd hx (hread msg prev)
    rcases threads_set h2 with ⟨-, hx⟩ | ⟨-, h2⟩
    · exact absurd hx (hread msg' prev')
    exact h.read_unique t1 t2 msg prev msg' prev' h1 h2 heq
  ready_unique t1 t2 msg msg' h1 h2 hr hr' heq := by
    rcases threads_set h1 with ⟨-, hx⟩ | ⟨-, h1⟩
    · rw [hready msg hx] at hr
      cases hr
    rcases threads_set h2 with ⟨-, hx⟩ | ⟨-, h2⟩
    · rw [hready msg' hx] at hr'
      cases hr'
    exact h.ready_unique t1 t2 msg msg' h1 h2 hr hr' heq
  ready_not_accepted t' msg ht' hr := by
    rcases threads_set ht' with ⟨-, hx⟩ | ⟨-, ht'⟩
    · rw [hready msg hx] at hr
      cases hr
    · exact h.ready_not_accepted t' msg ht' hr

/-- A thread has read a message that no other thread is about to mark. -/
lemma Inv.set_read (h : Inv st) (t : ℕ)
    (hg : st.original msg.replyId = some prev) (ha : replyAllowed msg prev = true)
    (halone : ∀ t' msg' prev', st.threads t' = .read msg' prev' → msg'.replyId ≠ msg.replyId) :
    Inv (st.set t (.read msg prev)) := by
  simp only [replyAllowed, and_eq_true, decide_eq_true_eq, not_eq_true'] at ha
  obtain ⟨⟨hto, hfrom⟩, hrep⟩ := ha
  -- the message was found in the queue of its receiver, which is the process that answers
  have hcur : msg.fromPid = st.kernel.currentPid := by
    obtain ⟨c, hc, rfl⟩ := map_eq_some_iff.mp hg
    rw [← hto]
    exact h.headerInv.queue_to _ c (mem_queue_of_findMsg hc).1
  refine ⟨h.headerInv, ?_, ?_, h.accepted, ?_, ?_, ?_, h.accepted_nodup⟩
  · intro t' msg' prev' ht'
    rcases threads_set ht' with ⟨-, hx⟩ | ⟨-, ht'⟩
    · cases hx
      exact ⟨⟨prev, hg, hto, hfrom, hrep⟩, id_of_msgGet hg, hcur⟩
    · exact h.read t' msg' prev' ht'
  · intro t' msg' ht' hr
    replace ht' := (threads_of_set ht' nofun).2
    exact h.ready t' msg' ht' hr
  -- one of the two is the thread that has just read: the other one answers another message
  · intro t1 t2 m1 p1 m2 p2 h1 h2 heq
    rcases threads_set h1 with ⟨rfl, hx1⟩ | ⟨-, ht1⟩ <;>
      rcases threads_set h2 with ⟨rfl, hx2⟩ | ⟨-, ht2⟩
    · rfl
    · cases hx1
      exact absurd heq.symm (halone t2 m2 p2 ht2)
    · cases hx2
      exact absurd heq (halone t1 m1 p1 ht1)
    · exact h.read_unique t1 t2 m1 p1 m2 p2 ht1 ht2 heq
  · intro t1 t2 m1 m2 h1 h2
    replace h1 := (threads_of_set h1 nofun).2
    replace h2 := (threads_of_set h2 nofun).2
    exact h.ready_unique t1 t2 m1 m2 h1 h2
  · intro t' msg' ht'
    replace ht' := (threads_of_set ht' nofun).2
    exact h.ready_not_accepted t' msg' ht'

lemma answers_mark {id : ℕ} {msg : MsgHeader} {b : Bool} (h : st.Answers msg b) :
    Answers { st with kernel := st.kernel.markReplied st.kernel.currentPid id } msg
      (if msg.replyId = id then true else b) := by
  obtain ⟨o, ho, hto, hfrom, hrep⟩ := h
  have hid : o.id = msg.replyId := id_of_msgGet ho
  have hget := msgGet_markReplied (s := st.kernel) msg.replyId st.kernel.currentPid id
  rw [original] at ho
  rw [ho, map_some] at hget
  refine ⟨_, hget, ?_, ?_, ?_⟩ <;> rw [hid] <;> split <;> simp [hto, hfrom, hrep]

/-- The thread that read a message marks it. -/
lemma Inv.mark (h : Inv st) (ht : st.threads t = .read msg prev) :
    Inv ({ st with kernel := st.kernel.markReplied msg.fromPid prev.id }.set t (.ready msg)) := by
  obtain ⟨hans, hprev, hcur⟩ := h.read t msg prev ht
  rw [hprev, hcur]
  have hmark : ∀ {m b}, st.Answers m b →
      Answers { st with kernel := st.kernel.markReplied st.kernel.currentPid msg.replyId } m
        (if m.replyId = msg.replyId then true else b) := answers_mark
  -- The message was not marked, so nothing else has a claim on it.
  have hother : ∀ {m}, st.Answers m true → m.replyId ≠ msg.replyId := fun hm =>
    hm.replyId_ne hans
  have htrue : ∀ {m}, st.Answers m true →
      Answers { st with kernel := st.kernel.markReplied st.kernel.currentPid msg.replyId } m
        true := by
    intro m hm
    have := hmark hm
    rwa [ite_self] at this
  refine ⟨(quiet_markReplied _ _ _).headerInv h.headerInv, ?_, ?_, ?_, ?_, ?_, ?_, h.accepted_nodup⟩
  · intro t' m p ht'
    obtain ⟨hne, ht'⟩ := threads_of_set ht' nofun
    obtain ⟨hm, hp, hc⟩ := h.read t' m p ht'
    have := hmark hm
    rw [if_neg fun heq => hne (h.read_unique t' t m p msg prev ht' ht heq)] at this
    exact ⟨this, hp, hc⟩
  · intro t' m ht' hr
    rcases threads_set ht' with ⟨-, hx⟩ | ⟨-, ht'⟩
    · cases hx
      have := hmark hans
      rwa [if_pos rfl] at this
    · exact htrue (h.ready t' m ht' hr)
  · intro m hm
    exact htrue (h.accepted m hm)
  · intro t1 t2 m1 p1 m2 p2 h1 h2
    replace h1 := (threads_of_set h1 nofun).2
    replace h2 := (threads_of_set h2 nofun).2
    exact h.read_unique t1 t2 m1 p1 m2 p2 h1 h2
  · intro t1 t2 m1 m2 h1 h2 hr1 hr2 heq
    rcases threads_set h1 with ⟨rfl, hx1⟩ | ⟨-, ht1⟩ <;>
      rcases threads_set h2 with ⟨rfl, hx2⟩ | ⟨-, ht2⟩
    · rfl
    · cases hx1
      exact absurd heq.symm (hother (h.ready t2 m2 ht2 hr2))
    · cases hx2
      exact absurd heq (hother (h.ready t1 m1 ht1 hr1))
    · exact h.ready_unique t1 t2 m1 m2 ht1 ht2 hr1 hr2 heq
  · intro t' m ht' hr m' hm'
    rcases threads_set ht' with ⟨-, hx⟩ | ⟨-, ht'⟩
    · cases hx
      exact hother (h.accepted m' hm')
    · exact h.ready_not_accepted t' m ht' hr m' hm'

/-- A thread puts its message in a queue. -/
lemma Inv.enqueue (h : Inv st) {msg : MsgHeader} (ht : st.threads t = .ready msg) :
    Inv ({ st with
      kernel := (msgEnqueue A st.kernel msg).2
      accepted := if msg.isReply then msg :: st.accepted else st.accepted }.set t .idle) := by
  obtain ⟨c, he⟩ := msgEnqueue_enqueued h.headerInv msg
  set k := (msgEnqueue A st.kernel msg).2
  -- a message behind the others does not hide those that are answered
  have hans : ∀ {m b}, st.Answers m b → Answers { st with kernel := k } m b := by
    rintro m b ⟨o, ho, hrest⟩
    refine ⟨o, ?_, hrest⟩
    rw [original, he.currentPid_eq]
    exact he.msgGet_eq ho
  have hacc : ∀ m ∈ (if msg.isReply then msg :: st.accepted else st.accepted),
      m ∈ st.accepted ∨ (m = msg ∧ msg.isReply) := by
    intro m hm
    split at hm
    · rcases mem_cons.mp hm with rfl | hm
      · exact .inr ⟨rfl, ‹_›⟩
      · exact .inl hm
    · exact .inl hm
  refine ⟨he.inv, ?_, ?_, ?_, ?_, ?_, ?_, ?_⟩
  · intro t' m p ht'
    replace ht' := (threads_of_set ht' nofun).2
    obtain ⟨hm, hp, hc⟩ := h.read t' m p ht'
    exact ⟨hans hm, hp, hc.trans he.currentPid_eq.symm⟩
  · intro t' m ht' hr
    replace ht' := (threads_of_set ht' nofun).2
    exact hans (h.ready t' m ht' hr)
  · intro m hm
    rcases hacc m hm with hm | ⟨rfl, hr⟩
    · exact hans (h.accepted m hm)
    · exact hans (h.ready t m ht hr)
  · intro t1 t2 m1 p1 m2 p2 h1 h2
    replace h1 := (threads_of_set h1 nofun).2
    replace h2 := (threads_of_set h2 nofun).2
    exact h.read_unique t1 t2 m1 p1 m2 p2 h1 h2
  · intro t1 t2 m1 m2 h1 h2
    replace h1 := (threads_of_set h1 nofun).2
    replace h2 := (threads_of_set h2 nofun).2
    exact h.ready_unique t1 t2 m1 m2 h1 h2
  · intro t' m ht' hr m' hm'
    rcases threads_set ht' with ⟨-, hx⟩ | ⟨hne, ht'⟩
    · cases hx
    rcases hacc m' hm' with hm' | ⟨rfl, hr'⟩
    · exact h.ready_not_accepted t' m ht' hr m' hm'
    -- two threads with replies to one message: only one of them was let through
    · exact fun heq => hne (h.ready_unique t' t m m' ht' ht hr hr' heq.symm)
  · show ((if msg.isReply then msg :: st.accepted else st.accepted).map MsgHeader.replyId).Nodup
    split
    · rename_i hr
      rw [map_cons, nodup_cons]
      refine ⟨fun hmem => ?_, h.accepted_nodup⟩
      obtain ⟨m, hm, heq⟩ := mem_map.mp hmem
      exact h.ready_not_accepted t msg ht hr m hm heq
    · exact h.accepted_nodup

/-! ## Runs -/

/-- The condition on a step: a thread reads the message it answers only when no other thread has
read it and not marked it yet. -/
def ReadsAlone (st : Repliers) : ReplyAction → Prop
  | .get t => ∀ msg, st.threads t = .checked msg →
      ∀ t' msg' prev', st.threads t' = .read msg' prev' → msg'.replyId ≠ msg.replyId
  | _ => True

lemma Inv.step (h : Inv st) {a : ReplyAction} (hg : ReadsAlone st a)
    (hs : Repliers.step A st a = some st') : Inv st' := by
  cases a with
  | call t msg =>
    rw [Repliers.step] at hs
    split at hs
    · cases hs
      split <;>
        exact h.set t (fun _ _ => Section.noConfusion) fun _ heq => Section.noConfusion heq
    · cases hs
  | get t =>
    rw [Repliers.step] at hs
    split at hs
    · rename_i msg ht
      cases hs
      rw [afterCheck]
      split
      · split
        · exact h.set t (fun _ _ => Section.noConfusion) fun _ heq => Section.noConfusion heq
        · rename_i prev hprev
          split
          · exact h.set_read t hprev ‹_› (hg msg ht)
          · exact h.set t (fun _ _ => Section.noConfusion) fun _ heq => Section.noConfusion heq
      · rename_i hr
        refine h.set t (fun _ _ => Section.noConfusion) fun msg' heq => ?_
        cases heq
        exact not_eq_true _ ▸ hr
    · cases hs
  | mark t =>
    rw [Repliers.step] at hs
    split at hs
    · cases hs
      exact h.mark ‹_›
    · cases hs
  | enqueue t =>
    rw [Repliers.step] at hs
    split at hs
    · cases hs
      exact h.enqueue ‹_›
    · cases hs

/-- In every state reached by steps that read a message only while no other thread is about to
mark it, at most one reply to each message was accepted. -/
theorem atMostOneReply_of_reaches (hs : (repliers A).Reaches ReadsAlone st) :
    AtMostOneReply st := by
  have hinv : Inv st := hs.invariant (fun _ h => Initial.inv h) fun _ _ _ h hg hs => h.step hg hs
  exact hinv.atMostOneReply

/-- Process 1 is running and has one message, from process 2. -/
def oneMessage : Repliers where
  kernel := (kernelSend Allocator.bump { started 0 .empty with currentPid := 1 }
    { (default : MsgHeader) with fromPid := 2, toPid := 1 } 4).2
  threads _ := .idle
  accepted := []

lemma oneMessage_initial : Initial oneMessage := by
  refine ⟨?_, fun _ => rfl, rfl⟩
  have hi := ((quiet_currentPid (started 0 .empty) 1).contentInv
    (started_initial 0 .empty).contentInv).toHeaderInv
  obtain ⟨c, hd⟩ := kernelSend_delivered hi
    { (default : MsgHeader) with fromPid := 2, toPid := 1 } 4 rfl rfl rfl
  exact hd.inv

/-- The reply of process 1 to its message. -/
def reply : MsgHeader :=
  { (default : MsgHeader) with flags := flagReply, replyId := 1, fromPid := 1, toPid := 2 }

/-- Two threads reply one after the other: the second one reads the message when it is marked, and
its reply is refused. -/
theorem atMostOneReply_twoRepliers :
    ∃ st, (repliers Allocator.bump).Reaches ReadsAlone st ∧ st.accepted = [reply] ∧
      st.threads 1 = .idle ∧ AtMostOneReply st := by
  have hs1 : (repliers Allocator.bump).Reaches ReadsAlone
      ((oneMessage.set 0 (.checked reply)).set 1 (.checked reply)) := by
    have hguard : ∀ a ∈ [ReplyAction.call 0 reply, .call 1 reply], ∀ st, ReadsAlone st a := by
      intro a ha st
      rcases mem_pair.mp ha with rfl | rfl <;> trivial
    exact System.reaches_of_run hguard (.init oneMessage_initial) rfl
  have hidle : ∀ t' msg prev, ((oneMessage.set 0 (.checked reply)).set 1
      (.checked reply)).threads t' ≠ .read msg prev := by
    intro t' msg prev ht'
    cases (threads_of_set (threads_of_set ht' nofun).2 nofun).2
  have hs2 := System.Reaches.step (a := ReplyAction.get 0) hs1
    (fun _ _ t' _ _ ht' => absurd ht' (hidle t' _ _)) rfl
  have hs3 := System.Reaches.step (a := ReplyAction.mark 0) hs2 trivial rfl
  have hs4 := System.Reaches.step (a := ReplyAction.get 1) hs3 (fun _ _ t' _ _ ht' => by
    obtain ⟨h0, ht'⟩ := threads_of_set ht' nofun
    exact absurd ((threads_set ht').resolve_left fun heq => h0 heq.1).2 (hidle t' _ _)) rfl
  have hs5 := System.Reaches.step (a := ReplyAction.enqueue 0) hs4 trivial rfl
  exact ⟨_, hs5, rfl, rfl, atMostOneReply_of_reaches hs5⟩

/-- Two threads read the message before either of them marks it. -/
def bothRead : List ReplyAction :=
  [.call 0 reply, .call 1 reply, .get 0, .get 1, .mark 0, .mark 1, .enqueue 0, .enqueue 1]

/-- Two replies to one message are accepted. -/
theorem exists_two_replies :
    ∃ st, (repliers Allocator.bump).Reachable st ∧ ¬ AtMostOneReply st := by
  have hrun : ((repliers Allocator.bump).run oneMessage bothRead).any
      (fun st => st.accepted = [reply, reply]) = true := by
    decide
  obtain ⟨st, hs, hp⟩ := System.exists_reachable_of_run oneMessage_initial hrun
  refine ⟨st, hs, fun hone => ?_⟩
  have hnodup := hone.1
  rw [of_decide_eq_true hp] at hnodup
  exact absurd hnodup (by decide)

end Repliers

end Messaging
