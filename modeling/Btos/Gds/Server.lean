import Btos.Lib.Blocks
import Btos.Lib.Loop
import Btos.Lib.TransitionSystem

/-!
# Messages to the graphics server

`client.cpp`, `bitmap_surface.cpp` and `vector_surface.cpp`: a client draws on surfaces by messages.
Two kinds of messages are copied into a block on the heap and read from there: several drawing
operations at once, and the parameters of an operation, which are a text or the points of a polygon.
The parameters may be kept by a vector surface and be read when it is drawn.

Every read from such a block is noted in `reads`. What a read behind the end of the block finds is
the continuation of `Message.bytes`. Pixels, colours and sizes of surfaces do not matter for these
reads and are left out, and so are the messages that only ask for something.

`readsInside_of_reaches`: the reads are inside their blocks if messages are as long as they say.
`exists_readsOutside` is a message that is not.
-/

open List Option

namespace Gds

/-! ## Messages -/

/-- `gds_MsgType`, as far as it matters here. -/
inductive MsgType where
  | newSurface
  | deleteSurface
  | selectSurface
  | addDrawingOp
  | removeDrawingOp
  | setOpParameters
  | reorderOp
  | multiDrawingOps
  | selectScreen
  | setCursor
  | other
  deriving DecidableEq, Repr

/-- The type of a message, from its number. -/
def MsgType.ofNumber (n : UInt32) : MsgType :=
  match n.toNat with
  | 1 => .newSurface
  | 2 => .deleteSurface
  | 3 => .selectSurface
  | 4 => .addDrawingOp
  | 5 => .removeDrawingOp
  | 10 => .setOpParameters
  | 12 => .reorderOp
  | 30 => .multiDrawingOps
  | 100 => .selectScreen
  | 103 => .setCursor
  | _ => .other

/-- `bt_pid_t`. -/
abbrev Pid := ℕ

/-- A message. -/
structure Message where
  sender : Pid
  type : UInt32
  length : ℕ
  bytes : Bytes

namespace Message

variable (m : Message)

/-- `Content<T>()` for a type of `size` bytes: zeros if the message is shorter. -/
def content (size : ℕ) : Bytes := if size ≤ m.length then m.bytes else fun _ => 0

/-- The block of `SetOpParameters`, with a NUL behind the content. -/
def params : Block where
  size := m.length + 1
  bytes i := if i = m.length then 0 else m.bytes i

end Message

/-- A number of 64 bits at the offset `i`, the low word first. -/
def dword (b : Bytes) (i : ℕ) : UInt64 :=
  (b.word i).toUInt64 + (b.word (i + 4)).toUInt64 * 0x100000000

/-- `sizeof(gds_DrawingOp)`. -/
def drawingOpSize : ℕ := 72

/-- `sizeof(gds_MultiOps)`. -/
def multiOpsSize : ℕ := 4

/-- `sizeof(gds_Point)`. -/
def pointSize : ℕ := 8

/-- `BT_MSG_MAX`. -/
def btMsgMax : ℕ := 4096

/-- The offset of `data` in `gds_OpParameters`. -/
def dataOffset : ℕ := 12

/-- `gds_DrawingOp`, as far as it matters here. -/
inductive DrawingOp where
  | text (fontID size : UInt32)
  | polygon
  | blit (src : UInt64)
  /-- An operation that draws something else. -/
  | draw
  | none
  deriving Repr

namespace DrawingOp

/-- The number of `gds_DrawingOpType::Text`. -/
def textType : UInt32 := 10

/-- The number of `gds_DrawingOpType::Polygon`. -/
def polygonType : UInt32 := 5

/-- An operation from its bytes, which start at the offset `i`. -/
def ofBytes (b : Bytes) (i : ℕ) : DrawingOp :=
  match (b.word i).toNat with
  | 10 => .text (b.word (i + 12)) (b.word (i + 16))
  | 5 => .polygon
  | 12 => .blit (dword b (i + 4))
  | 0xFFFFFFFF => .none
  | _ => .draw

/-- The operation waits for parameters. -/
def needsParams : DrawingOp → Bool
  | .text _ _ | .polygon => true
  | _ => false

end DrawingOp

/-! ## Surfaces -/

/-- `VectorOp`, with its id. The operations of a surface are listed in the order of `zOrder`. -/
structure VectorOp where
  id : UInt32
  op : DrawingOp
  params : Option Block

/-- `Surface`. -/
inductive Surface where
  /-- `BitmapSurface`, with `pending_op`. -/
  | bitmap (pending : DrawingOp)
  /-- `VectorSurface`; `cached` if there is a rendering of it. -/
  | vector (opCounter : UInt32) (ops : List VectorOp) (cached : Bool)
  /-- `SHMSurface`. -/
  | memory

/-- `BitmapSurface::SetOpParameters`: what is pending afterwards, and the reads. `font` tells
whether there is a file for a font. -/
def bitmapSetOpParameters (font : UInt32 → Bool) (pending : DrawingOp) (params : Block) :
    DrawingOp × List Access :=
  let typeRead : Access := ⟨params.size, 0, 4⟩
  match pending with
  | .text fontID size =>
      if params.bytes.word 0 = DrawingOp.textType then
        -- `StringFT` reads up to the NUL
        let text := params.bytes.strlen dataOffset (2 ^ 32) + 1
        (.none, typeRead ::
          if font fontID && size != 0 then [⟨params.size, dataOffset, text⟩] else [])
      else (pending, [typeRead])
  | .polygon =>
      if params.bytes.word 0 = DrawingOp.polygonType then
        -- the number of points is taken from the message
        let pointCount := (params.bytes.word 8).toNat / pointSize
        (.none, [typeRead, ⟨params.size, 8, 4⟩, ⟨params.size, dataOffset, pointCount * pointSize⟩])
      else (pending, [typeRead])
  | _ => (pending, [])

/-- The id of a new operation, from a number on. -/
def nextOpId (ops : List VectorOp) : ℕ → UInt32 → UInt32
  | 0, id => id
  | n + 1, id => if ops.any (·.id == id) then nextOpId ops n (id + 1) else id

/-- `VectorSurface::ReorderOp`, for an operation that there is. -/
def reorder (ops : List VectorOp) (v : VectorOp) (ref mode : UInt32) : List VectorOp :=
  let rest := ops.filter (·.id != v.id)
  match mode.toNat, ops.find? (·.id == ref) with
  -- Front
  | 0, _ => rest ++ [v]
  -- Back
  | 1, _ => v :: rest
  -- Swap
  | 2, some r => ops.map fun o => if o.id = v.id then r else if o.id = ref then v else o
  -- Above
  | 3, some r =>
      if r.id = v.id then ops else rest.flatMap fun o => if o.id = ref then [o, v] else [o]
  -- Below
  | 4, some r =>
      if r.id = v.id then ops else rest.flatMap fun o => if o.id = ref then [v, o] else [o]
  | _, _ => ops

/-! ## The server -/

/-- `Client`. -/
structure Client where
  pid : Pid
  surfaces : List ℕ
  currentSurface : Option ℕ

/-- The server. Surfaces are known by their addresses. -/
structure Server where
  surfaceCounter : UInt64
  /-- `allSurfaces`: an entry may be empty. -/
  allSurfaces : UInt64 → Option (Option ℕ)
  objects : ℕ → Option Surface
  clients : List Client
  /-- The next address. -/
  fresh : ℕ
  reads : List Access

/-- The address of the screen. -/
def screen : ℕ := 0

namespace Server

variable (s : Server)

/-- Reads from a block. -/
def note (reads : List Access) : Server := { s with reads := reads ++ s.reads }

/-- A surface changes. -/
def setObject (k : ℕ) (f : Surface) : Server :=
  { s with objects := Function.update s.objects k (some f) }

/-- The client with a pid; it is made by its first message. -/
def client (pid : Pid) : Client := (s.clients.find? (·.pid == pid)).getD ⟨pid, [], none⟩

/-- A client changes. -/
def setClient (c : Client) : Server :=
  { s with clients := c :: s.clients.filter (·.pid != c.pid) }

/-- Some client refers to the surface, so that it is there. -/
def held (k : ℕ) : Bool :=
  k == screen || s.clients.any fun c => c.currentSurface == some k || c.surfaces.contains k

/-- `lock()` of an entry of `allSurfaces`. -/
def lock (entry : Option ℕ) : Option ℕ := entry.filter s.held

/-- `allSurfaces[id]`, which makes an empty entry where there is none. -/
def entry (id : UInt64) : Server × Option ℕ :=
  match s.allSurfaces id with
  | none => ({ s with allSurfaces := Function.update s.allSurfaces id (some none) }, none)
  | some found => (s, found)

end Server

section Drawing

variable (font : UInt32 → Bool)

/-- `BitmapSurface::AddOperation` with what is pending; `render` draws the source of a blit. -/
def bitmapAddOperation (render : Server → ℕ → Option Server) (s : Server) (pending : DrawingOp)
    (op : DrawingOp) : Option (Server × DrawingOp) :=
  match op with
  | .text _ _ | .polygon => some (s, op)
  | .blit src =>
      let (s, found) := s.entry src
      match s.lock found with
      -- a source that is gone is not drawn
      | none => some (s, pending)
      | some k => (render s k).map fun s => (s, pending)
  | _ => some (s, pending)

/-- An operation of a vector surface is drawn on a bitmap. -/
def renderOp (render : Server → ℕ → Option Server) (drawn : Server × DrawingOp) (v : VectorOp) :
    Option (Server × DrawingOp) :=
  if v.op.needsParams then
    match v.params with
    -- "Params missing for operation. Skipping."
    | none => some drawn
    | some p =>
        (bitmapAddOperation render drawn.1 drawn.2 v.op).map fun (s, pending) =>
          let (pending, reads) := bitmapSetOpParameters font pending p
          (s.note reads, pending)
  else bitmapAddOperation render drawn.1 drawn.2 v.op

/-- `Render` of a surface, which draws the surfaces that are blitted to it, in at most `depth`
nested calls: `none` if the stack is too small. -/
def render : ℕ → Server → ℕ → Option Server
  | 0, _, _ => none
  | depth + 1, s, k =>
      match s.objects k with
      | some (.vector opCounter ops false) =>
          (ops.foldlM (renderOp font (render depth)) (s, .none)).map fun drawn =>
            drawn.1.setObject k (.vector opCounter ops true)
      | _ => some s

variable (depth : ℕ)

/-- `AddOperation`. -/
def addOperation (s : Server) (k : ℕ) (op : DrawingOp) : Option Server :=
  match s.objects k with
  | some (.bitmap pending) =>
      (bitmapAddOperation (render font depth) s pending op).map fun (s, pending) =>
        s.setObject k (.bitmap pending)
  | some (.vector opCounter ops _) =>
      let id := nextOpId ops ops.length (opCounter + 1)
      some (s.setObject k (.vector id (ops ++ [⟨id, op, none⟩]) false))
  | _ => some s

/-- `RemoveOperation`. -/
def removeOperation (s : Server) (k : ℕ) (id : UInt32) : Server :=
  match s.objects k with
  | some (.vector opCounter ops _) =>
      if ops.any (·.id == id) then
        s.setObject k (.vector opCounter (ops.filter (·.id != id)) false)
      else s
  | _ => s

/-- `SetOpParameters`. -/
def setOpParameters (s : Server) (k : ℕ) (p : Block) : Server :=
  match s.objects k with
  | some (.bitmap pending) =>
      let (pending, reads) := bitmapSetOpParameters font pending p
      (s.note reads).setObject k (.bitmap pending)
  | some (.vector opCounter ops _) =>
      let id := p.bytes.word 4
      let s := s.note [⟨p.size, 4, 4⟩]
      if ops.any (·.id == id) then
        let ops := ops.map fun v => if v.id = id then { v with params := some p } else v
        s.setObject k (.vector opCounter ops false)
      else s
  | _ => s

/-- `ReorderOp`. -/
def reorderOp (s : Server) (k : ℕ) (op ref mode : UInt32) : Server :=
  match s.objects k with
  | some (.vector opCounter ops _) =>
      match ops.find? (·.id == op) with
      | none => s
      | some v => s.setObject k (.vector opCounter (reorder ops v ref mode) false)
  | _ => s

/-- `NewSurface`: an unknown type makes no surface. -/
def newSurface (s : Server) (c : Client) (type : UInt32) : Server :=
  let made : Option Surface := match type.toNat with
    | 0 => some (.bitmap .none)
    | 1 => some (.vector 0 [] false)
    | 2 => some .memory
    | _ => none
  match made with
  | none => s
  | some f =>
      let id := s.surfaceCounter + 1
      let all := if s.allSurfaces id = none then
          Function.update s.allSurfaces id (some (some s.fresh))
        else s.allSurfaces
      let s' := { s.setObject s.fresh f with
        surfaceCounter := id, allSurfaces := all, fresh := s.fresh + 1 }
      s'.setClient { c with surfaces := s.fresh :: c.surfaces, currentSurface := some s.fresh }

/-- `SelectSurface`. -/
def selectSurface (s : Server) (c : Client) (id : UInt64) : Server :=
  match s.allSurfaces id with
  | none => s.setClient { c with currentSurface := none }
  | some found =>
      match s.lock found with
      | none =>
          { s with allSurfaces := Function.update s.allSurfaces id none }.setClient
            { c with currentSurface := none }
      | some k => s.setClient { c with surfaces := k :: c.surfaces, currentSurface := some k }

/-- `MultiDrawingOps`: the block is as large as the message. -/
def multiDrawingOps (s : Server) (k : ℕ) (m : Message) : Option Server :=
  let s := s.note [⟨m.length, 0, 4⟩]
  let count := (m.bytes.word 0).toNat
  if count ≤ (btMsgMax - multiOpsSize) / drawingOpSize then
    (List.range count).foldlM (fun s i =>
      let offset := multiOpsSize + drawingOpSize * i
      addOperation font depth (s.note [⟨m.length, offset, drawingOpSize⟩]) k
        (.ofBytes m.bytes offset)) s
  else some s

/-- `Client::HandleMessage`. -/
def handleMessage (s : Server) (m : Message) : Option Server :=
  let c := s.client m.sender
  match MsgType.ofNumber m.type, c.currentSurface with
  | .newSurface, _ => some (newSurface s c ((m.content 40).word 8))
  | .deleteSurface, some k =>
      some (s.setClient { c with surfaces := c.surfaces.filter (· != k), currentSurface := none })
  | .selectSurface, _ => some (selectSurface s c (dword (m.content 8) 0))
  | .addDrawingOp, some k =>
      addOperation font depth s k (.ofBytes (m.content drawingOpSize) 0)
  | .removeDrawingOp, some k => some (removeOperation s k ((m.content 4).word 0))
  | .setOpParameters, some k => some (setOpParameters font s k m.params)
  | .reorderOp, some k =>
      let b := m.content 12
      some (reorderOp s k (b.word 0) (b.word 4) (b.word 8))
  | .multiDrawingOps, some k => multiDrawingOps font depth s k m
  | .selectScreen, _ => some (s.setClient { c with currentSurface := some screen })
  | .setCursor, _ =>
      let (s, found) := s.entry (dword (m.content 16) 8)
      match s.lock found with
      | none => some s
      | some k => render font depth s k
  | _, _ => some s

/-- What happens to the server. -/
inductive Event where
  | message (m : Message)
  /-- A process has ended. -/
  | processEnd (pid : Pid)

/-- Before the first message. -/
structure Initial (s : Server) : Prop where
  surfaceCounter_eq : s.surfaceCounter = 0
  allSurfaces_eq : s.allSurfaces = fun _ => none
  objects_eq : s.objects = Function.update (fun _ => none) screen (some (.bitmap .none))
  clients_eq : s.clients = []
  reads_eq : s.reads = []

/-- The server. -/
def server : System Server Event where
  init := Initial
  step s
    | .message m => handleMessage font depth s m
    | .processEnd pid => some { s with clients := s.clients.filter (·.pid != pid) }

end Drawing

/-! ## Messages that are as long as they say -/

/-- The parameters fit into their block: the text, which ends with the block, and the points. -/
structure ParamsFit (p : Block) : Prop where
  data : dataOffset < p.size
  nul : p.bytes (p.size - 1) = 0
  points : p.bytes.word 0 = DrawingOp.polygonType →
    dataOffset + (p.bytes.word 8).toNat / pointSize * pointSize ≤ p.size

/-- Parameters that fit are read inside their block. -/
lemma ParamsFit.inside {p : Block} (hp : ParamsFit p) (font : UInt32 → Bool)
    (pending : DrawingOp) : ∀ a ∈ (bitmapSetOpParameters font pending p).2, a.Inside := by
  have hdata : 12 < p.size := hp.data
  have htype : Access.Inside ⟨p.size, 0, 4⟩ := .inr (by change 0 + 4 ≤ p.size; omega)
  cases pending with
  | text fontID size =>
    -- the last byte of the block ends the text
    have hnul : p.bytes (dataOffset + (p.size - 13)) = 0 := by
      rw [show dataOffset + (p.size - 13) = p.size - 1 by rw [dataOffset]; omega]
      exact hp.nul
    have hlen : p.bytes.strlen dataOffset (2 ^ 32) ≤ p.size - 13 := Bytes.strlen_le hnul
    have htext : Access.Inside ⟨p.size, dataOffset, p.bytes.strlen dataOffset (2 ^ 32) + 1⟩ :=
      .inr (by change 12 + (p.bytes.strlen dataOffset (2 ^ 32) + 1) ≤ p.size; omega)
    rw [bitmapSetOpParameters]
    split
    · split
      · simpa using ⟨htype, htext⟩
      · simpa using htype
    · simpa using htype
  | polygon =>
    rw [bitmapSetOpParameters]
    split
    · next heq =>
      have hsize : Access.Inside ⟨p.size, 8, 4⟩ := .inr (by change 8 + 4 ≤ p.size; omega)
      have hpoints : Access.Inside
          ⟨p.size, dataOffset, (p.bytes.word 8).toNat / pointSize * pointSize⟩ :=
        .inr (hp.points heq)
      simpa using ⟨htype, hsize, hpoints⟩
    · simpa using htype
  | blit src | draw | none => simp [bitmapSetOpParameters]

/-- The parameters that a surface keeps fit into their blocks. -/
def Surface.ParamsFit : Surface → Prop
  | .vector _ ops _ => ∀ v ∈ ops, ∀ p ∈ v.params, Gds.ParamsFit p
  | _ => True

namespace Server

/-- All reads were inside, and so will be those of the parameters that are kept. -/
structure Sound (s : Server) : Prop where
  inside : ∀ a ∈ s.reads, a.Inside
  params : ∀ k f, s.objects k = some f → f.ParamsFit

variable {s s' : Server}

lemma Sound.note (hs : s.Sound) {reads : List Access} (hreads : ∀ a ∈ reads, a.Inside) :
    (s.note reads).Sound where
  inside a ha := (mem_append.mp ha).elim (hreads a) (hs.inside a)
  params := hs.params

lemma Sound.setObject (hs : s.Sound) {k : ℕ} {f : Surface} (hf : f.ParamsFit) :
    (s.setObject k f).Sound where
  inside := hs.inside
  params k' f' hf' := by
    change Function.update s.objects k (some f) k' = some f' at hf'
    by_cases hk : k' = k
    · rw [hk, Function.update_self, some.injEq] at hf'
      exact hf' ▸ hf
    · rw [Function.update_of_ne hk] at hf'
      exact hs.params k' f' hf'

lemma Sound.of_eq (hs : s.Sound) (hreads : s'.reads = s.reads)
    (hobjects : s'.objects = s.objects) : s'.Sound where
  inside := by rw [hreads]; exact hs.inside
  params := by rw [hobjects]; exact hs.params

lemma Sound.entry (hs : s.Sound) (id : UInt64) : (s.entry id).1.Sound := by
  unfold Server.entry
  split
  · exact hs.of_eq rfl rfl
  · exact hs

end Server

open Server

section Drawing

variable {font : UInt32 → Bool} {s s' : Server}

/-- Drawing on a bitmap, where drawing a source keeps the reads inside. -/
lemma Server.Sound.bitmapAddOperation {render : Server → ℕ → Option Server}
    (hrender : ∀ s k s', s.Sound → render s k = some s' → s'.Sound) (hs : s.Sound)
    {pending pending' op : DrawingOp}
    (h : bitmapAddOperation render s pending op = some (s', pending')) : s'.Sound := by
  cases op with
  | blit src =>
    have hentry := hs.entry src
    simp only [Gds.bitmapAddOperation] at h
    split at h
    · cases h
      exact hentry
    · next k _ =>
      rw [map_eq_some_iff] at h
      obtain ⟨s1, hdrawn, heq⟩ := h
      cases heq
      exact hrender _ k _ hentry hdrawn
  | text fontID size | polygon | draw | none =>
    cases h
    exact hs

/-- An operation of a vector surface. -/
lemma Server.Sound.renderOp {render : Server → ℕ → Option Server}
    (hrender : ∀ s k s', s.Sound → render s k = some s' → s'.Sound) {v : VectorOp}
    (hv : ∀ p ∈ v.params, ParamsFit p) {drawn drawn' : Server × DrawingOp} (hs : drawn.1.Sound)
    (h : renderOp font render drawn v = some drawn') : drawn'.1.Sound := by
  rw [Gds.renderOp] at h
  split at h
  · split at h
    · cases h
      exact hs
    · next p hp =>
      rw [map_eq_some_iff] at h
      obtain ⟨⟨s1, pending⟩, hadd, rfl⟩ := h
      exact (hs.bitmapAddOperation hrender hadd).note ((hv p hp).inside font pending)
  · exact hs.bitmapAddOperation hrender h

/-- `Render`, however deep the calls are nested. -/
lemma Server.Sound.render {depth : ℕ} {k : ℕ} (hs : s.Sound)
    (h : render font depth s k = some s') : s'.Sound := by
  -- over the depth: a source of a blit is drawn one level deeper
  induction depth generalizing s k s' with
  | zero => cases h
  | succ depth ih =>
    rw [Gds.render] at h
    split at h
    · next opCounter ops hobject =>
      rw [map_eq_some_iff] at h
      obtain ⟨drawn, hdrawn, rfl⟩ := h
      have hfit : ∀ v ∈ ops, ∀ p ∈ v.params, ParamsFit p := hs.params k _ hobject
      -- the operations that are left to draw are among those of the surface
      have hinv := Loop.foldlM_invariant
        (P := fun l drawn => (∀ v ∈ l, ∀ p ∈ v.params, ParamsFit p) ∧ Sound drawn.1)
        (fun v l drawn drawn' hP hstep =>
          ⟨fun v' hv' => hP.1 v' (mem_cons_of_mem v hv'),
            hP.2.renderOp (fun _ _ _ => ih) (hP.1 v mem_cons_self) hstep⟩) ⟨hfit, hs⟩ hdrawn
      exact hinv.2.setObject hfit
    · cases h
      exact hs

variable {depth : ℕ} {k : ℕ}

/-- `AddOperation`: a new operation has no parameters yet. -/
lemma Server.Sound.addOperation (hs : s.Sound) {op : DrawingOp}
    (h : addOperation font depth s k op = some s') : s'.Sound := by
  rw [Gds.addOperation] at h
  split at h
  · rw [map_eq_some_iff] at h
    obtain ⟨⟨s1, pending⟩, hadd, rfl⟩ := h
    have hadded := hs.bitmapAddOperation (fun _ _ _ hs h => hs.render h) hadd
    exact hadded.setObject trivial
  · next opCounter ops cached hobject =>
    cases h
    refine hs.setObject fun v hv => ?_
    rcases mem_append.mp hv with hv | hv
    · exact hs.params k _ hobject v hv
    -- the new operation waits for its parameters
    · rw [mem_singleton.mp hv]
      simp
  · cases h
    exact hs

/-- `SetOpParameters` of parameters that fit. -/
lemma Server.Sound.setOpParameters (hs : s.Sound) {p : Block} (hp : ParamsFit p) :
    (setOpParameters font s k p).Sound := by
  rw [Gds.setOpParameters]
  split
  · exact (hs.note (hp.inside font _)).setObject trivial
  · next opCounter ops cached hobject =>
    have hdata : 12 < p.size := hp.data
    have hid : ∀ a ∈ [(⟨p.size, 4, 4⟩ : Access)], a.Inside := by
      rw [forall_mem_singleton]
      exact .inr (by change 4 + 4 ≤ p.size; omega)
    dsimp only
    split
    · refine (hs.note hid).setObject fun v hv => ?_
      obtain ⟨old, hold, rfl⟩ := mem_map.mp hv
      split
      · rintro _ ⟨⟩
        exact hp
      · exact hs.params k _ hobject old hold
    · exact hs.note hid
  · exact hs

lemma mem_of_mem_insert {ops : List VectorOp} {v v' : VectorOp} {p : VectorOp → Bool}
    {f : VectorOp → List VectorOp} (hv : v ∈ ops) (hf : ∀ o, ∀ o' ∈ f o, o' = o ∨ o' = v)
    (h : v' ∈ (ops.filter p).flatMap f) : v' ∈ ops := by
  obtain ⟨o, ho, hmem⟩ := mem_flatMap.mp h
  rcases hf o v' hmem with rfl | rfl
  · exact mem_of_mem_filter ho
  · exact hv

/-- The operations that are reordered are those that were there. -/
lemma mem_of_mem_reorder {ops : List VectorOp} {v v' : VectorOp} {ref mode : UInt32}
    (hv : v ∈ ops) (h : v' ∈ reorder ops v ref mode) : v' ∈ ops := by
  unfold reorder at h
  split at h
  -- `Front` and `Back`
  · rcases mem_append.mp h with h | h
    · exact mem_of_mem_filter h
    · rwa [mem_singleton.mp h]
  · rcases mem_cons.mp h with rfl | h
    · exact hv
    · exact mem_of_mem_filter h
  -- `Swap` puts the other operation in the place of each
  · next r _ hr =>
    obtain ⟨o, ho, rfl⟩ := mem_map.mp h
    have hmem := mem_of_find?_eq_some hr
    split
    · exact hmem
    · split <;> assumption
  -- `Above` and `Below`
  · split at h
    · exact h
    · refine mem_of_mem_insert hv (fun o o' ho' => ?_) h
      split at ho' <;> simp_all
  · split at h
    · exact h
    · refine mem_of_mem_insert hv (fun o o' ho' => ?_) h
      split at ho' <;> simp_all [or_comm]
  · exact h

lemma Server.Sound.reorderOp (hs : s.Sound) (op ref mode : UInt32) :
    (reorderOp s k op ref mode).Sound := by
  rw [Gds.reorderOp]
  split
  · next opCounter ops cached hobject =>
    split
    · exact hs
    · next v hv =>
      refine hs.setObject fun v' hv' => ?_
      exact hs.params k _ hobject v' (mem_of_mem_reorder (mem_of_find?_eq_some hv) hv')
  · exact hs

lemma Server.Sound.removeOperation (hs : s.Sound) (id : UInt32) :
    (removeOperation s k id).Sound := by
  rw [Gds.removeOperation]
  split
  · next opCounter ops cached hobject =>
    split
    · exact hs.setObject fun v hv => hs.params k _ hobject v (mem_of_mem_filter hv)
    · exact hs
  · exact hs

lemma Server.Sound.newSurface (hs : s.Sound) (c : Client) (type : UInt32) :
    (newSurface s c type).Sound := by
  rw [Gds.newSurface]
  split
  · exact hs
  · next f hf =>
    -- of the three types only a vector surface keeps operations, and it has none yet
    have hfit : f.ParamsFit := by
      split at hf <;> cases hf
      · trivial
      · exact fun v hv => absurd hv not_mem_nil
      · trivial
    exact (hs.setObject hfit).of_eq rfl rfl

lemma Server.Sound.selectSurface (hs : s.Sound) (c : Client) (id : UInt64) :
    (selectSurface s c id).Sound := by
  rw [Gds.selectSurface]
  split
  · exact hs.of_eq rfl rfl
  · split <;> exact hs.of_eq rfl rfl

end Drawing

/-- A message whose content is as long as it says: the operations of `MultiDrawingOps`, and for
`SetOpParameters` the header and the points of a polygon. -/
def WellSized (m : Message) : Prop :=
  match MsgType.ofNumber m.type with
  | .multiDrawingOps => 4 ≤ m.length ∧
      ((m.bytes.word 0).toNat ≤ (btMsgMax - multiOpsSize) / drawingOpSize →
        multiOpsSize + drawingOpSize * (m.bytes.word 0).toNat ≤ m.length)
  | .setOpParameters => dataOffset ≤ m.length ∧
      (m.bytes.word 0 = DrawingOp.polygonType →
        dataOffset + (m.bytes.word 8).toNat / pointSize * pointSize ≤ m.length + 1)
  | _ => True

instance decidableWellSized (m : Message) : Decidable (WellSized m) := by
  unfold WellSized
  split <;> infer_instance

/-- Only messages that are well sized arrive. -/
def Regular (_ : Server) : Event → Prop
  | .message m => WellSized m
  | .processEnd _ => True

instance decidableRegular (s : Server) (e : Event) : Decidable (Regular s e) := by
  cases e <;> unfold Regular <;> infer_instance

/-- The parameters of a well-sized message fit into their block. -/
lemma paramsFit_params {m : Message} (hdata : dataOffset ≤ m.length)
    (hpoints : m.bytes.word 0 = DrawingOp.polygonType →
      dataOffset + (m.bytes.word 8).toNat / pointSize * pointSize ≤ m.length + 1) :
    ParamsFit m.params := by
  have hlength : 12 ≤ m.length := hdata
  -- the NUL is behind the header
  have hbyte : ∀ i < 12, m.params.bytes i = m.bytes i := fun i hi => if_neg (by omega)
  have hword : ∀ i ≤ 8, m.params.bytes.word i = m.bytes.word i := by
    intro i hi
    rw [Bytes.word, Bytes.word, hbyte i (by omega), hbyte (i + 1) (by omega),
      hbyte (i + 2) (by omega), hbyte (i + 3) (by omega)]
  refine ⟨Nat.lt_succ_of_le hdata, if_pos rfl, fun htype => ?_⟩
  rw [hword 0 (by omega)] at htype
  rw [hword 8 (le_refl 8)]
  exact hpoints htype

section Messages

variable {font : UInt32 → Bool} {depth : ℕ} {s s' : Server}

/-- `MultiDrawingOps` of a message with room for all operations. -/
lemma Server.Sound.multiDrawingOps (hs : s.Sound) {k : ℕ} {m : Message} (hlength : 4 ≤ m.length)
    (hcount : (m.bytes.word 0).toNat ≤ (btMsgMax - multiOpsSize) / drawingOpSize →
      multiOpsSize + drawingOpSize * (m.bytes.word 0).toNat ≤ m.length)
    (h : multiDrawingOps font depth s k m = some s') : s'.Sound := by
  have hread : ∀ a ∈ [(⟨m.length, 0, 4⟩ : Access)], a.Inside := by
    rw [forall_mem_singleton]
    exact .inr (by change 0 + 4 ≤ m.length; omega)
  rw [Gds.multiDrawingOps] at h
  dsimp only at h
  split at h
  · next hle =>
    have hroom := hcount hle
    -- the operations that are left are among those that the message announces
    have hinv := Loop.foldlM_invariant
      (P := fun l s => (∀ i ∈ l, i < (m.bytes.word 0).toNat) ∧ Sound s) (fun i l s s' hP hstep => by
        have hi := hP.1 i mem_cons_self
        have hop : ∀ a ∈ [(⟨m.length, multiOpsSize + drawingOpSize * i, drawingOpSize⟩ : Access)],
            a.Inside := by
          rw [forall_mem_singleton]
          refine .inr ?_
          simp only [multiOpsSize, drawingOpSize] at hroom ⊢
          omega
        exact ⟨fun j hj => hP.1 j (mem_cons_of_mem i hj), (hP.2.note hop).addOperation hstep⟩)
      ⟨fun i hi => mem_range.mp hi, hs.note hread⟩ h
    exact hinv.2
  · cases h
    exact hs.note hread

/-- Every well-sized message keeps the reads inside. -/
lemma Server.Sound.handleMessage (hs : s.Sound) {m : Message} (hm : WellSized m)
    (h : handleMessage font depth s m = some s') : s'.Sound := by
  rw [Gds.handleMessage] at h
  dsimp only at h
  rw [WellSized] at hm
  split at h
  -- `SetOpParameters` and `MultiDrawingOps` read from a block; the others only lead to drawing
  case h_1 => cases h; exact hs.newSurface _ _
  case h_2 => cases h; exact hs.of_eq rfl rfl
  case h_3 => cases h; exact hs.selectSurface _ _
  case h_4 => exact hs.addOperation h
  case h_5 => cases h; exact hs.removeOperation _
  case h_6 htype _ =>
    rw [htype] at hm
    cases h
    exact hs.setOpParameters (paramsFit_params hm.1 hm.2)
  case h_7 => cases h; exact hs.reorderOp _ _ _
  case h_8 htype _ =>
    rw [htype] at hm
    exact hs.multiDrawingOps hm.1 hm.2 h
  case h_9 => cases h; exact hs.of_eq rfl rfl
  case h_10 =>
    have hentry := hs.entry (dword (m.content 16) 8)
    split at h
    · cases h
      exact hentry
    · exact hentry.render h
  case h_11 => cases h; exact hs

end Messages

/-- In every state that a row of well-sized messages from any clients leads to, all reads were
inside the blocks that the messages were copied into. -/
theorem readsInside_of_reaches (font : UInt32 → Bool) (depth : ℕ) {s : Server}
    (h : (server font depth).Reaches Regular s) : ∀ a ∈ s.reads, a.Inside := by
  refine Sound.inside (h.invariant (fun s hs => ?_) fun s e s' hs hregular hstep => ?_)
  · refine ⟨by simp [hs.reads_eq], fun k f hf => ?_⟩
    rw [hs.objects_eq, Function.update_apply] at hf
    split at hf <;> cases hf
    trivial
  · cases e with
    | message m => exact hs.handleMessage hregular hstep
    | processEnd pid =>
      cases hstep
      exact hs.of_eq rfl rfl

/-- The server at its start. -/
def idleServer : Server where
  surfaceCounter := 0
  allSurfaces _ := none
  objects := Function.update (fun _ => none) screen (some (.bitmap .none))
  clients := []
  fresh := 1
  reads := []

lemma initial_idleServer : Initial idleServer := ⟨rfl, rfl, rfl, rfl, rfl⟩

/-- A message of a client, from the bytes that are not zero. -/
def clientMessage (type : UInt32) (length : ℕ) (bytes : List (ℕ × UInt8)) : Event :=
  .message ⟨7, type, length, fun i => (bytes.lookup i).getD 0⟩

/-- A text of one character is kept by a vector surface and read when the surface is drawn. -/
theorem readsInside_vectorText :
    ∃ s, (server (fun _ => true) 2).Reaches Regular s ∧ ⟨14, 12, 2⟩ ∈ s.reads ∧
      ∀ a ∈ s.reads, a.Inside := by
  have hrun : (((server (fun _ => true) 2).guarded Regular).run idleServer
      [clientMessage 1 40 [(8, 1)], clientMessage 4 72 [(0, 10), (16, 12)],
        clientMessage 10 13 [(0, 10), (4, 1), (8, 1), (12, 65)],
        clientMessage 103 16 [(8, 1)]]).any (fun s => decide (⟨14, 12, 2⟩ ∈ s.reads)) = true := by
    decide
  rw [Option.any_eq_true] at hrun
  obtain ⟨s, hrun, hread⟩ := hrun
  have hreaches := System.reaches_of_run_guarded (.init initial_idleServer) hrun
  exact ⟨s, hreaches, of_decide_eq_true hread, readsInside_of_reaches _ _ hreaches⟩

/-- A message of four bytes that announces one operation: the operation is read from behind the end
of the block. -/
theorem exists_readsOutside :
    ∃ s, (server (fun _ => true) 2).Reachable s ∧ ∃ a ∈ s.reads, ¬a.Inside := by
  have hrun : ((server (fun _ => true) 2).run idleServer
      [clientMessage 1 40 [], clientMessage 30 4 [(0, 1)]]).any
        (fun s => decide (∃ a ∈ s.reads, ¬a.Inside)) = true := by
    decide
  obtain ⟨s, hreachable, hs⟩ := System.exists_reachable_of_run initial_idleServer hrun
  exact ⟨s, hreachable, of_decide_eq_true hs⟩

end Gds
