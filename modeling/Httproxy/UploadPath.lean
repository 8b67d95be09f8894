/-
  The whole way of an upload: from the proxy request and the local socket to the upstream connection.

  The pieces are the early data and the upload loop of the client (`Client.UploadLoop`), the request
  handlers of the server (`setup_tunnel_response` and `dispatch_to_actor` in
  `src/server/handlers.rs`) with their decoders (`Server.FrameDecoder`), and the upload actor
  (`Server.Upload`).  Here they run side by side.

  1. **Handlers (`PostHandler`)** — one for each time a POST reaches the server; it passes the frames of
     the body on in order, then an `Eos`, and waits for the answer.

  2. **System (`Path`)** — the client's loop goes on by itself, POSTs arrive in any order and any number
     of times, cut into chunks in any way, and the handlers take turns.  `log` keeps what the upload
     actor has received.

  3. **Invariant (`Inv`)** — a handler has passed on a FRONT of the frames its body decodes to, and a
     body decodes to the group of frames it was made of.  So everything the actor gets is a frame of the
     client's, and when all handlers are through it has got all of them; what the order and the repeats
     do is the matter of `Upload.live_writes`.

  The channel to the actor keeps its order, so a command is received here when it is sent.
-/
import Httproxy.Client.UploadTasks
import Httproxy.Server.FrameDecoder
import Httproxy.Server.UploadOrder

namespace Httproxy.UploadPath

open Crypto Machine Seq Shaper Decoder UploadLoop

/-! ## The handler of a POST -/

inductive Stage where
  /-- The loop over the decoder. -/
  | reading
  /-- All frames are sent; the `Eos` is next. -/
  | closing
  /-- Awaits the answer to the `Eos`. -/
  | waiting
  /-- Has responded, with a success status or not. -/
  | responded (ok : Bool)
  deriving DecidableEq, Repr

structure PostHandler where
  /-- The number of the POST whose body it reads. -/
  post : Nat
  decoder : FrameDecoder
  maxSeq : UInt64
  frameCount : Nat
  stage : Stage

/-- `dispatch_to_actor` up to its loop. -/
def PostHandler.new (post : Nat) (inner : List Feed) : PostHandler :=
  ⟨post, .new inner, 0, 0, .reading⟩

/-- What one poll of the decoder comes to for the loop. -/
structure PollResult where
  /-- The command that is sent to the actor. -/
  cmd : Option Upload.UploadCmd
  handler : PostHandler

section Program

variable (key : LessSafeKey) (base122 : Base122Fast) (encoding : EncodingType)

/-- One turn of the loop in `dispatch_to_actor`.  A body without frames is no upload: it asks for the
    next segment of the download, and comes to no `Eos`. -/
def PostHandler.poll (h : PostHandler) : PollResult :=
  match pollNext key base122 encoding MAX_FRAME_BUF_SIZE h.decoder with
  | (.pending, decoder) => ⟨none, { h with decoder }⟩
  | (.item seq data, decoder) =>
    ⟨some (.frame seq data),
      { h with decoder, maxSeq := max h.maxSeq seq, frameCount := h.frameCount + 1 }⟩
  | (.failed _, decoder) => ⟨none, { h with decoder, stage := .responded false }⟩
  | (.ended, decoder) =>
    ⟨none, { h with decoder, stage := if h.frameCount = 0 then .responded true else .closing }⟩

/-! ## The system -/

structure Path where
  client : UploadLoopActor
  /-- The decoder of the first request, until its body is over. -/
  opening : FrameDecoder
  /-- The first request has been answered: the tunnel is there. -/
  opened : Bool
  actor : Upload.UploadActor
  handlers : List PostHandler
  /-- Log: what the upload actor has received. -/
  log : List Upload.Event

def Path.start (client : UploadLoopActor) (opening : List Feed) (now : Nat) : Path where
  client
  opening := .new opening
  opened := false
  actor := Upload.new 0 now
  handlers := []
  log := []

inductive Event where
  /-- The handler of the first request polls its decoder. -/
  | opening (now : Nat)
  /-- A step of the client's loop, the end of a POST apart. -/
  | client (e : UploadLoop.Event)
  /-- The `i`-th POST reaches the server, in these pieces. -/
  | arrive (i : Nat) (inner : List Feed)
  /-- The `j`-th handler polls its decoder. -/
  | poll (j now : Nat)
  /-- The `j`-th handler sends its `Eos`. -/
  | eos (j now : Nat)
  /-- The `j`-th handler gets the answer to its `Eos` and responds. -/
  | answer (j : Nat)
  /-- The `j`-th handler ends without an answer: its time is over, or the connection is lost. -/
  | giveUp (j : Nat)
  /-- The client has the response of the `j`-th handler, a success. -/
  | success (j : Nat)
  /-- The `i`-th POST fails on the side of the client. -/
  | failure (i : Nat) (outcome : UploadLoop.Outcome)
  /-- The actor's timeout, its shutdown, the end of its channel. -/
  | actor (e : Upload.Event)

/-- The events of the client's loop that are not the end of a POST. -/
def ownEvent : UploadLoop.Event → Bool
  | .ended _ _ => false
  | _ => true

/-- The events of the actor that no handler of an upload causes. -/
def background : Upload.Event → Bool
  | .recv _ .shutdown | .closed | .timeout _ => true
  | .recv _ (.frame _ _) | .recv _ (.eos _ _) => false

instance (inner : List Feed) (b : Bytes) : Decidable (Cuts inner b) :=
  let noFailure : Feed → Bool
    | .failed _ => false
    | _ => true
  decidable_of_iff (inner.all noFailure = true ∧ fed inner = b) (by
    refine and_congr_left fun _ => ?_
    rw [List.all_eq_true]
    constructor
    · intro h e hmem
      exact absurd (h _ hmem) (by simp)
    · intro h feed hmem
      cases feed with
      | pending => rfl
      | chunk b => rfl
      | failed e => exact absurd hmem (h e))

variable (writeOk : Nat → Bool)

/-- The actor receives `e`. -/
def Path.receive (s : Path) (e : Upload.Event) : Option Path :=
  (Upload.step writeOk s.actor e).map fun actor => { s with actor, log := s.log ++ [e] }

/-- The command of a handler goes to the actor, if there is one. -/
def Path.send (s : Path) (now : Nat) : Option Upload.UploadCmd → Option Path
  | none => some s
  | some cmd => s.receive writeOk (.recv now cmd)

def Path.setHandler (s : Path) (j : Nat) (h : PostHandler) : Path :=
  { s with handlers := s.handlers.set j h }

def step (s : Path) : Event → Option Path
  | .opening now =>
    if s.opened then none
    else match pollNext key base122 encoding MAX_FRAME_BUF_SIZE s.opening with
      | (.pending, opening) => some { s with opening }
      | (.item seq data, opening) => { s with opening }.receive writeOk (.recv now (.frame seq data))
      | (.ended, opening) => some { s with opening, opened := true }
      | (.failed _, _) => none
  | .client e =>
    if s.opened ∧ ownEvent e then
      (UploadLoop.step key base122 s.client e).map fun client => { s with client }
    else none
  | .arrive i inner =>
    match s.client.posts[i]? with
    | some post =>
      if Cuts inner post.body then some { s with handlers := s.handlers ++ [.new i inner] } else none
    | none => none
  | .poll j now =>
    match s.handlers[j]? with
    | some h =>
      if h.stage = .reading then
        let polled := h.poll key base122 encoding
        (s.setHandler j polled.handler).send writeOk now polled.cmd
      else none
    | none => none
  | .eos j now =>
    match s.handlers[j]? with
    | some h =>
      if h.stage = .closing then
        (s.setHandler j { h with stage := .waiting }).receive writeOk (.recv now (.eos h.maxSeq j))
      else none
    | none => none
  | .answer j =>
    match s.handlers[j]?, s.actor.acks.lookup j with
    | some h, some answer =>
      if h.stage = .waiting then
        some (s.setHandler j { h with stage := .responded (answer = .ok) })
      else none
    | _, _ => none
  | .giveUp j =>
    match s.handlers[j]? with
    | some h =>
      match h.stage with
      | .responded _ => none
      | _ => some (s.setHandler j { h with stage := .responded false })
    | none => none
  | .success j =>
    match s.handlers[j]? with
    | some h =>
      if h.stage = .responded true then
        (UploadLoop.step key base122 s.client (.ended h.post .success)).map fun client =>
          { s with client }
      else none
    | none => none
  | .failure i outcome =>
    if outcome = .success then none
    else (UploadLoop.step key base122 s.client (.ended i outcome)).map fun client => { s with client }
  | .actor e => if background e then s.receive writeOk e else none

end Program

/-! ## What a step can do -/

/-- The steps of the system, one constructor per way through `step`. -/
inductive Motion (key : LessSafeKey) (base122 : Base122Fast) (encoding : EncodingType)
    (writeOk : Nat → Bool) (s : Path) : Event → Path → Prop where
  /-- The first request has not got further. -/
  | openingWaits {t opening} (hopen : s.opened = false)
      (hpoll : pollNext key base122 encoding MAX_FRAME_BUF_SIZE s.opening = (.pending, opening)) :
      Motion key base122 encoding writeOk s (.opening t) { s with opening }
  /-- The next frame of the early data. -/
  | openingPasses {t seq data opening actor} (hopen : s.opened = false)
      (hpoll : pollNext key base122 encoding MAX_FRAME_BUF_SIZE s.opening = (.item seq data, opening))
      (hact : Upload.step writeOk s.actor (.recv t (.frame seq data)) = some actor) :
      Motion key base122 encoding writeOk s (.opening t)
        { s with opening, actor, log := s.log ++ [.recv t (.frame seq data)] }
  /-- The first request is through. -/
  | opens {t opening} (hopen : s.opened = false)
      (hpoll : pollNext key base122 encoding MAX_FRAME_BUF_SIZE s.opening = (.ended, opening)) :
      Motion key base122 encoding writeOk s (.opening t) { s with opening, opened := true }
  | loop {e client} (hopened : s.opened = true) (hown : ownEvent e = true)
      (hstep : UploadLoop.step key base122 s.client e = some client) :
      Motion key base122 encoding writeOk s (.client e) { s with client }
  | arrives {i inner post} (hpost : s.client.posts[i]? = some post) (hcuts : Cuts inner post.body) :
      Motion key base122 encoding writeOk s (.arrive i inner)
        { s with handlers := s.handlers ++ [.new i inner] }
  /-- A handler has not got further. -/
  | waits {j t g decoder} (hget : s.handlers[j]? = some g) (hreading : g.stage = .reading)
      (hpoll : pollNext key base122 encoding MAX_FRAME_BUF_SIZE g.decoder = (.pending, decoder)) :
      Motion key base122 encoding writeOk s (.poll j t) (s.setHandler j { g with decoder })
  /-- A handler passes the next frame of its body on. -/
  | passes {j t g seq data decoder actor} (hget : s.handlers[j]? = some g)
      (hreading : g.stage = .reading)
      (hpoll : pollNext key base122 encoding MAX_FRAME_BUF_SIZE g.decoder = (.item seq data, decoder))
      (hact : Upload.step writeOk s.actor (.recv t (.frame seq data)) = some actor) :
      Motion key base122 encoding writeOk s (.poll j t)
        { s.setHandler j { g with decoder, maxSeq := max g.maxSeq seq, frameCount := g.frameCount + 1 }
          with actor, log := s.log ++ [.recv t (.frame seq data)] }
  /-- The body does not decode. -/
  | fails {j t g e decoder} (hget : s.handlers[j]? = some g) (hreading : g.stage = .reading)
      (hpoll : pollNext key base122 encoding MAX_FRAME_BUF_SIZE g.decoder = (.failed e, decoder)) :
      Motion key base122 encoding writeOk s (.poll j t)
        (s.setHandler j { g with decoder, stage := .responded false })
  /-- The body is over. -/
  | finishes {j t g decoder} (hget : s.handlers[j]? = some g) (hreading : g.stage = .reading)
      (hpoll : pollNext key base122 encoding MAX_FRAME_BUF_SIZE g.decoder = (.ended, decoder)) :
      Motion key base122 encoding writeOk s (.poll j t)
        (s.setHandler j
          { g with decoder, stage := if g.frameCount = 0 then .responded true else .closing })
  | sendsEos {j t g actor} (hget : s.handlers[j]? = some g) (hclosing : g.stage = .closing)
      (hact : Upload.step writeOk s.actor (.recv t (.eos g.maxSeq j)) = some actor) :
      Motion key base122 encoding writeOk s (.eos j t)
        { s.setHandler j { g with stage := .waiting } with
          actor, log := s.log ++ [.recv t (.eos g.maxSeq j)] }
  | answers {j g answer} (hget : s.handlers[j]? = some g) (hwaiting : g.stage = .waiting)
      (hlookup : s.actor.acks.lookup j = some answer) :
      Motion key base122 encoding writeOk s (.answer j)
        (s.setHandler j { g with stage := .responded (answer = .ok) })
  | givesUp {j g} (hget : s.handlers[j]? = some g) (hnot : ∀ ok, g.stage ≠ .responded ok) :
      Motion key base122 encoding writeOk s (.giveUp j)
        (s.setHandler j { g with stage := .responded false })
  | succeeds {j g client} (hget : s.handlers[j]? = some g) (hstage : g.stage = .responded true)
      (hstep : UploadLoop.step key base122 s.client (.ended g.post .success) = some client) :
      Motion key base122 encoding writeOk s (.success j) { s with client }
  | breaks {i outcome client} (houtcome : outcome ≠ .success)
      (hstep : UploadLoop.step key base122 s.client (.ended i outcome) = some client) :
      Motion key base122 encoding writeOk s (.failure i outcome) { s with client }
  /-- The actor's timeout, its shutdown, the end of its channel. -/
  | apart {e actor} (hback : background e = true) (hact : Upload.step writeOk s.actor e = some actor) :
      Motion key base122 encoding writeOk s (.actor e) { s with actor, log := s.log ++ [e] }

/-- **The inversion of `step`.** -/
theorem step_motion {key : LessSafeKey} {base122 : Base122Fast} {encoding : EncodingType}
    {writeOk : Nat → Bool} {s s' : Path} {e : Event}
    (hstep : step key base122 encoding writeOk s e = some s') :
    Motion key base122 encoding writeOk s e s' := by
  cases e with
  | opening t =>
    rw [step] at hstep
    split at hstep
    · cases hstep
    · rename_i hne
      have hopen : s.opened = false := by simpa using hne
      split at hstep
      · obtain rfl := Option.some.inj hstep
        exact .openingWaits hopen ‹_›
      · obtain ⟨actor, hact, rfl⟩ := Option.map_eq_some_iff.mp hstep
        exact .openingPasses hopen ‹_› hact
      · obtain rfl := Option.some.inj hstep
        exact .opens hopen ‹_›
      · cases hstep
  | client e =>
    rw [step, Option.ite_none_right_eq_some] at hstep
    obtain ⟨⟨hopened, hown⟩, hstep⟩ := hstep
    obtain ⟨client, hclient, rfl⟩ := Option.map_eq_some_iff.mp hstep
    exact .loop hopened hown hclient
  | arrive i inner =>
    rw [step] at hstep
    split at hstep
    · rename_i post hpost
      rw [Option.ite_none_right_eq_some] at hstep
      obtain ⟨hcuts, hstep⟩ := hstep
      obtain rfl := Option.some.inj hstep
      exact .arrives hpost hcuts
    · cases hstep
  | poll j t =>
    rw [step] at hstep
    split at hstep
    · rename_i g hget
      rw [Option.ite_none_right_eq_some] at hstep
      obtain ⟨hreading, hstep⟩ := hstep
      dsimp only at hstep
      rw [PostHandler.poll] at hstep
      split at hstep
      · obtain rfl := Option.some.inj hstep
        exact .waits hget hreading ‹_›
      · obtain ⟨actor, hact, rfl⟩ := Option.map_eq_some_iff.mp hstep
        exact .passes hget hreading ‹_› hact
      · obtain rfl := Option.some.inj hstep
        exact .fails hget hreading ‹_›
      · obtain rfl := Option.some.inj hstep
        exact .finishes hget hreading ‹_›
    · cases hstep
  | eos j t =>
    rw [step] at hstep
    split at hstep
    · rename_i g hget
      rw [Option.ite_none_right_eq_some] at hstep
      obtain ⟨hclosing, hstep⟩ := hstep
      obtain ⟨actor, hact, rfl⟩ := Option.map_eq_some_iff.mp hstep
      exact .sendsEos hget hclosing hact
    · cases hstep
  | answer j =>
    rw [step] at hstep
    split at hstep
    · rename_i g answer hget hlookup
      rw [Option.ite_none_right_eq_some] at hstep
      obtain ⟨hwaiting, hstep⟩ := hstep
      obtain rfl := Option.some.inj hstep
      exact .answers hget hwaiting hlookup
    · cases hstep
  | giveUp j =>
    rw [step] at hstep
    split at hstep
    · rename_i g hget
      split at hstep
      · cases hstep
      · rename_i hnot
        obtain rfl := Option.some.inj hstep
        exact .givesUp hget hnot
    · cases hstep
  | success j =>
    rw [step] at hstep
    split at hstep
    · rename_i g hget
      rw [Option.ite_none_right_eq_some] at hstep
      obtain ⟨hstage, hstep⟩ := hstep
      obtain ⟨client, hclient, rfl⟩ := Option.map_eq_some_iff.mp hstep
      exact .succeeds hget hstage hclient
    · cases hstep
  | failure i outcome =>
    rw [step, Option.ite_none_left_eq_some] at hstep
    obtain ⟨houtcome, hstep⟩ := hstep
    obtain ⟨client, hclient, rfl⟩ := Option.map_eq_some_iff.mp hstep
    exact .breaks houtcome hclient
  | actor e =>
    rw [step, Option.ite_none_right_eq_some] at hstep
    obtain ⟨hback, hstep⟩ := hstep
    obtain ⟨actor, hact, rfl⟩ := Option.map_eq_some_iff.mp hstep
    exact .apart hback hact

/-! ## A body decodes to the frames it was made of -/

/-- The number and the data of a frame. -/
def itemsOf (fs : List SealedFrame) : List (UInt64 × Bytes) := fs.map fun f => (f.seq, f.data)

section Decoding

variable {key : LessSafeKey} {base122 : Base122Fast} {encoding : EncodingType}

theorem frames_nil : frames key base122 encoding [] = ([], true) := by
  have hnone : (decodeFrame key base122 [] ⟨[], 0⟩ encoding).result = .ok none := by
    cases encoding <;> rfl
  rw [frames_none hnone]
  rfl

/-- A frame at the front of a byte string. -/
theorem frames_carries (hkey : key.Lawful) (hb : base122.Lawful) {f data : Bytes} {seq : UInt64}
    {padding : Nat} (hf : Carries key base122 encoding f seq data padding) (rest : Bytes) :
    frames key base122 encoding (f ++ rest) =
      ((seq, data) :: (frames key base122 encoding rest).1, (frames key base122 encoding rest).2) := by
  obtain ⟨hyields, hsrc⟩ := decodeFrame_carries hkey hb hf rest ⟨[], 0⟩
  rw [Decoding.yields] at hyields
  split at hyields
  · cases hyields
  · cases hyields
  · rename_i hres
    have hitem := Option.some.inj (Except.ok.inj hyields)
    rw [frames_some hres, hsrc, itemOf, hitem]
  · rename_i hres
    have hitem := Option.some.inj (Except.ok.inj hyields)
    rw [frames_some hres, hsrc, itemOf, hitem]

theorem frames_bytesOf (hkey : key.Lawful) (hb : base122.Lawful) {fs : List SealedFrame}
    (hfs : ∀ f ∈ fs, ∃ padding, Carries key base122 encoding f.bytes f.seq f.data padding) :
    frames key base122 encoding (bytesOf fs) = (itemsOf fs, true) := by
  induction fs with
  | nil => exact frames_nil
  | cons f fs ih =>
    obtain ⟨padding, hf⟩ := hfs f List.mem_cons_self
    have hrest := ih fun g hg => hfs g (List.mem_cons_of_mem f hg)
    show frames key base122 encoding (f.bytes ++ bytesOf fs) = _
    rw [frames_carries hkey hb hf, hrest]
    rfl

/-- Each body of the loop decodes to frames of its shaper. -/
theorem frames_body (hkey : key.Lawful) (hb : base122.Lawful) {startSeq : UInt64} {payload body : Bytes}
    {u : UploadLoopActor} (hu : UploadLoop.Inv key base122 encoding startSeq payload u)
    (hbody : body ∈ u.posts.map Post.body) :
    ∃ g, frames key base122 encoding body = (itemsOf g, true) ∧ ∀ f ∈ g, f ∈ u.shaped.frames := by
  obtain ⟨batchBuf, ⟨groups, cur, hframes, hbodies, _, _⟩, _⟩ := hu.batches
  rw [hbodies] at hbody
  obtain ⟨g, hg, rfl⟩ := List.mem_map.mp hbody
  have hmem : ∀ f ∈ g, f ∈ u.shaped.frames := by
    intro f hf
    rw [← hframes]
    exact List.mem_append_left _ (List.mem_flatten.mpr ⟨g, hg, hf⟩)
  exact ⟨g, frames_bytesOf hkey hb (fun f hf => (hu.conserved.carried f (hmem f hf)).2), hmem⟩

end Decoding

/-! ## Passing frames on -/

section Passing

variable {key : LessSafeKey} {base122 : Base122Fast} {encoding : EncodingType}
  {items : List (UInt64 × Bytes)} {log : List Upload.Event} {d d' : FrameDecoder}

/-- A decoder has passed a front of `items` on to the actor and has the rest before it. -/
def Passing (key : LessSafeKey) (base122 : Base122Fast) (encoding : EncodingType)
    (items : List (UInt64 × Bytes)) (log : List Upload.Event) (d : FrameDecoder) : Prop :=
  Decoder.Polling d ∧ ∃ sent rest, sent ++ rest = items ∧
    frames key base122 encoding d.due = (rest, true) ∧ ∀ p ∈ sent, p ∈ Upload.framesOf log

theorem Passing.append (h : Passing key base122 encoding items log d) (more : List Upload.Event) :
    Passing key base122 encoding items (log ++ more) d := by
  obtain ⟨hd, sent, rest, hitems, hdue, hsent⟩ := h
  refine ⟨hd, sent, rest, hitems, hdue, fun p hp => ?_⟩
  rw [Upload.framesOf_append]
  exact List.mem_append_left _ (hsent p hp)

theorem passing_new {inner : List Feed} {body : Bytes} (hcuts : Cuts inner body)
    (hbody : frames key base122 encoding body = (items, true)) (log : List Upload.Event) :
    Passing key base122 encoding items log (.new inner) := by
  refine ⟨⟨rfl, fun he => Bool.noConfusion he, hcuts.1⟩, [], items, rfl, ?_,
    fun p hp => absurd hp List.not_mem_nil⟩
  have hdue : (FrameDecoder.new inner).due = body := hcuts.2
  rw [hdue, hbody]

theorem Passing.pending (h : Passing key base122 encoding items log d)
    (hp : pollNext key base122 encoding MAX_FRAME_BUF_SIZE d = (.pending, d')) :
    Passing key base122 encoding items log d' := by
  obtain ⟨hd, sent, rest, hitems, hdue, hsent⟩ := h
  have hagree : Agrees key base122 encoding d.due _ := pollNext_agrees hd
  rw [hp] at hagree
  exact ⟨hagree.1, sent, rest, hitems, by rw [hagree.2, hdue], hsent⟩

theorem Passing.item {seq : UInt64} {data : Bytes} (h : Passing key base122 encoding items log d)
    (hp : pollNext key base122 encoding MAX_FRAME_BUF_SIZE d = (.item seq data, d')) (now : Nat) :
    (seq, data) ∈ items ∧
      Passing key base122 encoding items (log ++ [.recv now (.frame seq data)]) d' := by
  obtain ⟨hd, sent, rest, hitems, hdue, hsent⟩ := h
  have hagree : Agrees key base122 encoding d.due _ := pollNext_agrees hd
  rw [hp] at hagree
  obtain ⟨hd', hframes⟩ := hagree
  rw [hdue, Prod.mk.injEq] at hframes
  obtain ⟨rfl, hclean⟩ := hframes
  refine ⟨hitems ▸ List.mem_append_right _ List.mem_cons_self, hd', sent ++ [(seq, data)],
    (frames key base122 encoding d'.due).1, ?_, Prod.ext rfl hclean.symm, ?_⟩
  · rw [List.append_assoc, List.singleton_append, hitems]
  · intro p hmem
    rw [Upload.framesOf_append]
    rcases List.mem_append.mp hmem with hmem | hmem
    · exact List.mem_append_left _ (hsent p hmem)
    · exact List.mem_append_right _ hmem

theorem Passing.ended (h : Passing key base122 encoding items log d)
    (hp : pollNext key base122 encoding MAX_FRAME_BUF_SIZE d = (.ended, d')) :
    ∀ p ∈ items, p ∈ Upload.framesOf log := by
  obtain ⟨hd, sent, rest, rfl, hdue, hsent⟩ := h
  have hagree : Agrees key base122 encoding d.due _ := pollNext_agrees hd
  rw [hp] at hagree
  have hrest : rest = [] := congrArg Prod.fst (hdue.symm.trans hagree)
  rw [hrest, List.append_nil]
  exact hsent

end Passing

/-! ## The invariant -/

section Invariant

variable (key : LessSafeKey) (base122 : Base122Fast) (encoding : EncodingType) (writeOk : Nat → Bool)
  (early : List SealedFrame) (remaining : Bytes) (now : Nat)

/-- All of `items` have been received. -/
def Received (log : List Upload.Event) (items : List (UInt64 × Bytes)) : Prop :=
  ∀ p ∈ items, p ∈ Upload.framesOf log

theorem Received.append {log : List Upload.Event} {items : List (UInt64 × Bytes)}
    (h : Received log items) (more : List Upload.Event) : Received (log ++ more) items := by
  intro p hp
  rw [Upload.framesOf_append]
  exact List.mem_append_left _ (h p hp)

/-- How far a handler is with the body it reads. -/
def HandlerInv (bodies : List Bytes) (log : List Upload.Event) (h : PostHandler) : Prop :=
  ∃ body items, bodies[h.post]? = some body ∧ frames key base122 encoding body = (items, true) ∧
    match h.stage with
    | .reading => Passing key base122 encoding items log h.decoder
    | .closing | .waiting | .responded true => Received log items
    | .responded false => True

structure Inv (s : Path) : Prop where
  client : UploadLoop.Inv key base122 encoding (seqAt 0 early.length) remaining s.client
  joins : Joins s.client
  actor : run (Upload.step writeOk) (Upload.new 0 now) s.log = some s.actor
  opening : s.opened = false → Passing key base122 encoding (itemsOf early) s.log s.opening
  opened : s.opened = true → Received s.log (itemsOf early)
  handlers : ∀ h ∈ s.handlers, HandlerInv key base122 encoding (s.client.posts.map Post.body) s.log h
  known : ∀ p ∈ Upload.framesOf s.log, p ∈ itemsOf early ∨ p ∈ itemsOf s.client.shaped.frames

end Invariant

/-! ## Each step keeps it -/

section Steps

variable {key : LessSafeKey} {base122 : Base122Fast} {encoding : EncodingType} {writeOk : Nat → Bool}
  {early : List SealedFrame} {remaining : Bytes} {now : Nat} {s s' : Path}

/-- More bodies and more commands do not touch what a handler has done. -/
theorem HandlerInv.mono {bodies bodies' : List Bytes} {log : List Upload.Event} {h : PostHandler}
    (hh : HandlerInv key base122 encoding bodies log h) (hbodies : bodies <+: bodies')
    (more : List Upload.Event) : HandlerInv key base122 encoding bodies' (log ++ more) h := by
  obtain ⟨body, items, hbody, hitems, hstage⟩ := hh
  obtain ⟨new, rfl⟩ := hbodies
  refine ⟨body, items, ?_, hitems, ?_⟩
  · obtain ⟨hlt, _⟩ := List.getElem?_eq_some_iff.mp hbody
    rw [List.getElem?_append_left hlt, hbody]
  · split at hstage
    · exact Passing.append hstage more
    · exact Received.append hstage more
    · exact Received.append hstage more
    · exact Received.append hstage more
    · trivial

theorem itemsOf_mono {fs gs : List SealedFrame} (h : fs <+: gs) {p : UInt64 × Bytes}
    (hp : p ∈ itemsOf fs) : p ∈ itemsOf gs :=
  (h.map _).subset hp

/-- The actor receives something, a frame only if the client made it. -/
theorem Inv.received {e : Upload.Event} {actor : Upload.UploadActor}
    (h : Inv key base122 encoding writeOk early remaining now s)
    (hstep : Upload.step writeOk s.actor e = some actor)
    (hframe : ∀ p ∈ Upload.framesOf [e],
      p ∈ itemsOf early ∨ p ∈ itemsOf s.client.shaped.frames) :
    Inv key base122 encoding writeOk early remaining now { s with actor, log := s.log ++ [e] } where
  client := h.client
  joins := h.joins
  actor := run_snoc_eq_some.mpr ⟨s.actor, h.actor, hstep⟩
  opening hopen := (h.opening hopen).append [e]
  opened hopen := (h.opened hopen).append [e]
  handlers hd hmem := (h.handlers hd hmem).mono List.prefix_rfl [e]
  known p hp := by
    rw [Upload.framesOf_append] at hp
    rcases List.mem_append.mp hp with hp | hp
    · exact h.known p hp
    · exact hframe p hp

theorem Inv.set_handler {j : Nat} {hd : PostHandler}
    (h : Inv key base122 encoding writeOk early remaining now s)
    (hhd : HandlerInv key base122 encoding (s.client.posts.map Post.body) s.log hd) :
    Inv key base122 encoding writeOk early remaining now (s.setHandler j hd) where
  client := h.client
  joins := h.joins
  actor := h.actor
  opening := h.opening
  opened := h.opened
  handlers g hmem := by
    rcases List.mem_or_eq_of_mem_set hmem with hmem | rfl
    · exact h.handlers g hmem
    · exact hhd
  known := h.known

/-- The client's loop takes a step. -/
theorem Inv.client_step {e : UploadLoop.Event} {client : UploadLoopActor} (hkey : key.NeverFails)
    (h : Inv key base122 encoding writeOk early remaining now s)
    (hstep : UploadLoop.step key base122 s.client e = some client) :
    Inv key base122 encoding writeOk early remaining now { s with client } where
  client := inv_step hkey h.client hstep
  joins := joins_step h.joins hstep
  actor := h.actor
  opening := h.opening
  opened := h.opened
  handlers hd hmem := by
    have hmono := (h.handlers hd hmem).mono (grows_step hstep).bodies []
    rwa [List.append_nil] at hmono
  known p hp := (h.known p hp).imp_right (itemsOf_mono (grows_step hstep).frames)

/-- What is in a body, the client has made. -/
theorem Inv.known_body (hkey : key.Lawful) (hb : base122.Lawful) {i : Nat} {body : Bytes}
    {items : List (UInt64 × Bytes)} (h : Inv key base122 encoding writeOk early remaining now s)
    (hbody : (s.client.posts.map Post.body)[i]? = some body)
    (hitems : frames key base122 encoding body = (items, true)) :
    ∀ p ∈ items, p ∈ itemsOf s.client.shaped.frames := by
  obtain ⟨g, hg, hmem⟩ := frames_body hkey hb h.client (List.mem_of_getElem? hbody)
  obtain rfl : items = itemsOf g := congrArg Prod.fst (hitems.symm.trans hg)
  intro p hp
  obtain ⟨f, hf, rfl⟩ := List.mem_map.mp hp
  exact List.mem_map.mpr ⟨f, hmem f hf, rfl⟩

/-- **Every step keeps the invariant.** -/
theorem inv_path (hkey : key.Lawful) (hseal : key.NeverFails) (hb : base122.Lawful) {e : Event}
    (h : Inv key base122 encoding writeOk early remaining now s)
    (hstep : step key base122 encoding writeOk s e = some s') :
    Inv key base122 encoding writeOk early remaining now s' := by
  cases step_motion hstep with
  | openingWaits hopen hpoll => exact { h with opening := fun _ => (h.opening hopen).pending hpoll }
  | @openingPasses t seq data opening actor hopen hpoll hact =>
    obtain ⟨hmem, hpass⟩ := (h.opening hopen).item hpoll t
    have hreceived := h.received hact fun p hp => by
      obtain rfl : p = (seq, data) := by simpa [Upload.framesOf] using hp
      exact .inl hmem
    exact { hreceived with opening := fun _ => hpass }
  | opens hopen hpoll =>
    refine { h with opening := ?_, opened := fun _ => (h.opening hopen).ended hpoll }
    intro hopened
    cases hopened
  | loop hopened hown hclient => exact h.client_step hseal hclient
  | @arrives i inner post hpost hcuts =>
    have hbody : (s.client.posts.map Post.body)[i]? = some post.body := by
      rw [List.getElem?_map, hpost, Option.map_some]
    obtain ⟨g, hg, _⟩ := frames_body hkey hb h.client (List.mem_of_getElem? hbody)
    refine { h with handlers := fun hd hmem => ?_ }
    rcases List.mem_append.mp hmem with hmem | hmem
    · exact h.handlers hd hmem
    · obtain rfl := List.mem_singleton.mp hmem
      exact ⟨post.body, itemsOf g, hbody, hg, passing_new hcuts hg s.log⟩
  | waits hget hreading hpoll =>
    obtain ⟨body, items, hbody, hitems, hpass⟩ := h.handlers _ (List.mem_of_getElem? hget)
    simp only [hreading] at hpass
    refine h.set_handler ⟨body, items, hbody, hitems, ?_⟩
    simpa only [hreading] using hpass.pending hpoll
  | @passes j t g seq data decoder actor hget hreading hpoll hact =>
    obtain ⟨body, items, hbody, hitems, hpass⟩ := h.handlers g (List.mem_of_getElem? hget)
    simp only [hreading] at hpass
    obtain ⟨hmem, hpass⟩ := Passing.item hpass hpoll t
    have hreceived := h.received hact fun p hp => by
      obtain rfl : p = (seq, data) := by simpa [Upload.framesOf] using hp
      exact .inr (h.known_body hkey hb hbody hitems _ hmem)
    refine hreceived.set_handler (j := j) ⟨body, items, hbody, hitems, ?_⟩
    simpa only [hreading] using hpass
  | fails hget hreading hpoll =>
    obtain ⟨body, items, hbody, hitems, _⟩ := h.handlers _ (List.mem_of_getElem? hget)
    exact h.set_handler ⟨body, items, hbody, hitems, trivial⟩
  | @finishes j t g decoder hget hreading hpoll =>
    obtain ⟨body, items, hbody, hitems, hpass⟩ := h.handlers g (List.mem_of_getElem? hget)
    simp only [hreading] at hpass
    have hall : Received s.log items := Passing.ended hpass hpoll
    refine h.set_handler ⟨body, items, hbody, hitems, ?_⟩
    by_cases hnone : g.frameCount = 0
    · simpa only [hnone, if_true] using hall
    · simpa only [hnone, if_false] using hall
  | @sendsEos j t g actor hget hclosing hact =>
    obtain ⟨body, items, hbody, hitems, hall⟩ := h.handlers g (List.mem_of_getElem? hget)
    simp only [hclosing] at hall
    have hreceived := h.received hact fun p hp => absurd hp List.not_mem_nil
    exact hreceived.set_handler (j := j) ⟨body, items, hbody, hitems, Received.append hall _⟩
  | @answers j g answer hget hwaiting hlookup =>
    obtain ⟨body, items, hbody, hitems, hall⟩ := h.handlers g (List.mem_of_getElem? hget)
    simp only [hwaiting] at hall
    refine h.set_handler ⟨body, items, hbody, hitems, ?_⟩
    by_cases hok : answer = .ok
    · simpa only [hok, decide_true] using hall
    · simp only [hok, decide_false]
  | givesUp hget hnot =>
    obtain ⟨body, items, hbody, hitems, _⟩ := h.handlers _ (List.mem_of_getElem? hget)
    exact h.set_handler ⟨body, items, hbody, hitems, trivial⟩
  | succeeds hget hstage hclient => exact h.client_step hseal hclient
  | breaks houtcome hclient => exact h.client_step hseal hclient
  | @apart e actor hback hact =>
    refine h.received hact fun p hp => ?_
    cases e with
    | closed => exact absurd hp List.not_mem_nil
    | timeout t => exact absurd hp List.not_mem_nil
    | recv t cmd =>
      cases cmd with
      | frame seq data => cases hback
      | eos maxSeq ack => cases hback
      | shutdown => exact absurd hp List.not_mem_nil

end Steps

theorem inv_start {key : LessSafeKey} {base122 : Base122Fast} (hkey : key.Lawful) (hb : base122.Lawful)
    {config : ResolvedShaperConfig} {early : List SealedFrame}
    (hearly : Carried key base122 config.encoding 0 early) {opening : List Feed}
    (hcuts : Cuts opening (bytesOf early)) (writeOk : Nat → Bool) (remaining : Bytes)
    (uploadConcurrency maxInFlightBytes random now : Nat) :
    Inv key base122 config.encoding writeOk early remaining now
      (.start (.new config uploadConcurrency maxInFlightBytes remaining (seqAt 0 early.length) random)
        opening now) where
  client := inv_new ..
  joins := joins_new ..
  actor := rfl
  opening _ := passing_new hcuts (frames_bytesOf hkey hb fun f hf => (hearly.carries f hf).2) []
  opened := by rintro ⟨⟩
  handlers _ hmem := absurd hmem List.not_mem_nil
  known _ hp := absurd hp List.not_mem_nil

/-! ## Everything arrives -/

/-- The input is over, everything has been sent, and for each POST some handler has passed on all of its
    frames. -/
def AllProcessed (s : Path) : Prop :=
  s.opened = true ∧ s.client.point.streamEnded = true ∧ s.client.point.batchBuf = [] ∧
    ∀ i < s.client.posts.length, ∃ h ∈ s.handlers, h.post = i ∧ h.stage ≠ .reading ∧
      h.stage ≠ .responded false

instance (s : Path) : Decidable (AllProcessed s) := by
  unfold AllProcessed
  infer_instance

theorem bytes_ne_nil {key : LessSafeKey} {base122 : Base122Fast} {encoding : EncodingType}
    {f data : Bytes} {seq : UInt64} {padding : Nat}
    (h : Carries key base122 encoding f seq data padding) : f ≠ [] := by
  obtain ⟨nonce, ct, tag, _, _, hf⟩ := h
  cases encoding with
  | binary =>
    rintro rfl
    have hlen := congrArg List.length hf
    simp at hlen
    omega
  | json =>
    obtain ⟨old, rfl⟩ := hf
    simp [DATA_START]

/-- The body of the `i`-th POST is made of `items`. -/
def Body (key : LessSafeKey) (base122 : Base122Fast) (encoding : EncodingType) (s : Path) (i : Nat)
    (items : List (UInt64 × Bytes)) : Prop :=
  ∃ body, (s.client.posts.map Post.body)[i]? = some body ∧
    frames key base122 encoding body = (items, true)

theorem Body.unique {key : LessSafeKey} {base122 : Base122Fast} {encoding : EncodingType} {s : Path}
    {i : Nat} {items items' : List (UInt64 × Bytes)} (h : Body key base122 encoding s i items)
    (h' : Body key base122 encoding s i items') : items = items' := by
  obtain ⟨body, hbody, hitems⟩ := h
  obtain ⟨body', hbody', hitems'⟩ := h'
  obtain rfl := Option.some.inj (hbody.symm.trans hbody')
  exact congrArg Prod.fst (hitems.symm.trans hitems')

section Ends

variable {key : LessSafeKey} {base122 : Base122Fast} {encoding : EncodingType} {writeOk : Nat → Bool}
  {early : List SealedFrame} {remaining : Bytes} {now : Nat} {s : Path}

/-- The POSTs are made of consecutive groups of frames; what is in no group yet is in the buffer. -/
theorem Inv.groups (hkey : key.Lawful) (hb : base122.Lawful)
    (h : Inv key base122 encoding writeOk early remaining now s) :
    ∃ (groups : List (List SealedFrame)) (cur : List SealedFrame),
      groups.flatten ++ cur = s.client.shaped.frames ∧ groups.length = s.client.posts.length ∧
      (∀ i g, groups[i]? = some g → Body key base122 encoding s i (itemsOf g)) ∧
      (s.client.point ≠ .returned false → bytesOf cur = s.client.point.batchBuf) := by
  obtain ⟨batchBuf, ⟨groups, cur, hframes, hbodies, _, hcur⟩, hbuf⟩ := h.client.batches
  refine ⟨groups, cur, hframes, ?_, fun i g hg => ?_, fun hp => hcur.trans (hbuf hp)⟩
  · simpa using (congrArg List.length hbodies).symm
  · refine ⟨bytesOf g, by rw [hbodies, List.getElem?_map, hg, Option.map_some], ?_⟩
    refine frames_bytesOf hkey hb fun f hf => (h.client.conserved.carried f ?_).2
    rw [← hframes]
    exact List.mem_append_left _ (List.mem_flatten.mpr ⟨g, List.mem_of_getElem? hg, hf⟩)

/-- When all is processed, every frame the client ever made has been received. -/
theorem Inv.all_received (hkey : key.Lawful) (hb : base122.Lawful)
    (h : Inv key base122 encoding writeOk early remaining now s) (hall : AllProcessed s) :
    Received s.log (itemsOf (early ++ s.client.shaped.frames)) := by
  obtain ⟨hopened, hended, hempty, hposts⟩ := hall
  obtain ⟨groups, cur, hframes, hlen, hbodies, hcur⟩ := h.groups hkey hb
  have hnil : cur = [] := by
    have hpoint : s.client.point ≠ .returned false := by
      intro hp
      rw [hp] at hended
      cases hended
    replace hcur := (hcur hpoint).trans hempty
    cases cur with
    | nil => rfl
    | cons f cur =>
      have hmem : f ∈ s.client.shaped.frames := by
        rw [← hframes]
        exact List.mem_append_right _ List.mem_cons_self
      obtain ⟨_, padding, hf⟩ := h.client.conserved.carried f hmem
      exact absurd (List.append_eq_nil_iff.mp hcur).1 (bytes_ne_nil hf)
  rw [hnil, List.append_nil] at hframes
  intro p hp
  rw [itemsOf, List.map_append] at hp
  rcases List.mem_append.mp hp with hp | hp
  · exact h.opened hopened p hp
  · obtain ⟨f, hf, rfl⟩ := List.mem_map.mp hp
    rw [← hframes] at hf
    obtain ⟨g, hg, hf⟩ := List.mem_flatten.mp hf
    obtain ⟨i, hi⟩ := List.getElem?_of_mem hg
    obtain ⟨hlt, _⟩ := List.getElem?_eq_some_iff.mp hi
    obtain ⟨hd, hmem, rfl, hread, hfail⟩ := hposts i (by omega)
    obtain ⟨body, items, hbody, hitems, hstage⟩ := h.handlers hd hmem
    obtain rfl : items = itemsOf g := Body.unique ⟨body, hbody, hitems⟩ (hbodies _ g hi)
    have hreceived : Received s.log (itemsOf g) := by
      split at hstage
      · rename_i hs
        exact absurd hs hread
      · exact hstage
      · exact hstage
      · exact hstage
      · rename_i hs
        exact absurd hs hfail
    exact hreceived _ (List.mem_map.mpr ⟨f, hf, rfl⟩)

/-- The frames of the early data and those of the shaper are numbered as one sequence. -/
theorem Inv.seqs (hearly : Carried key base122 encoding 0 early)
    (h : Inv key base122 encoding writeOk early remaining now s) :
    (early ++ s.client.shaped.frames).map SealedFrame.seq =
      (List.range (early ++ s.client.shaped.frames).length).map (seqAt 0) := by
  rw [List.map_append, hearly.seqs, h.client.conserved.seqs, List.length_append, List.range_add,
    List.map_append, List.map_map]
  congr 1
  exact List.map_congr_left fun i _ => seqAt_add 0 early.length i

end Ends

/-! ## What the actor has written then -/

section Written

variable {F : List (UInt64 × Bytes)} {all : List SealedFrame}

/-- Below the wrap-around a number belongs to one frame. -/
theorem data_of_mem (hseqs : all.map SealedFrame.seq = (List.range all.length).map (seqAt 0))
    (hcount : all.length < 2 ^ 64) {i : Nat} (hi : i < 2 ^ 64) {d : Bytes}
    (hmem : (seqAt 0 i, d) ∈ itemsOf all) : ∃ h : i < all.length, all[i].data = d := by
  obtain ⟨f, hf, heq⟩ := List.mem_map.mp hmem
  obtain ⟨k, hk, rfl⟩ := List.getElem_of_mem hf
  obtain ⟨hseq, rfl⟩ := Prod.mk.inj heq
  have hat : all[k].seq = seqAt 0 k := by
    have := congrArg (·[k]?) hseqs
    simpa [hk] using this
  have hzero : (0 : UInt64).toNat = 0 := rfl
  have hnat := congrArg UInt64.toNat (hat.symm.trans hseq)
  rw [seqAt_toNat (by omega), seqAt_toNat (by omega)] at hnat
  obtain rfl : k = i := by omega
  exact ⟨hk, rfl⟩

theorem lookup_received (hseqs : all.map SealedFrame.seq = (List.range all.length).map (seqAt 0))
    (hcount : all.length < 2 ^ 64) (hknown : ∀ p ∈ F, p ∈ itemsOf all)
    (hall : ∀ p ∈ itemsOf all, p ∈ F) {i : Nat} (hi : i < 2 ^ 64) :
    F.lookup (seqAt 0 i) = (all[i]?).map SealedFrame.data := by
  cases hl : F.lookup (seqAt 0 i) with
  | some d =>
    have hmem : (seqAt 0 i, d) ∈ F := by
      obtain ⟨l₁, l₂, rfl, _⟩ := List.lookup_eq_some_iff.mp hl
      simp
    obtain ⟨hlt, rfl⟩ := data_of_mem hseqs hcount hi (hknown _ hmem)
    rw [List.getElem?_eq_getElem hlt, Option.map_some]
  | none =>
    symm
    rw [Option.map_eq_none_iff, List.getElem?_eq_none_iff]
    refine Nat.le_of_not_lt fun hlt => ?_
    have hat : all[i].seq = seqAt 0 i := by
      have := congrArg (·[i]?) hseqs
      simpa [hlt] using this
    have hmem := hall (all[i].seq, all[i].data) (List.mem_map.mpr ⟨all[i], List.getElem_mem hlt, rfl⟩)
    rw [List.lookup_eq_none_iff] at hl
    have := hl _ hmem
    simp [hat] at this

/-- **An actor that has received all frames of a sequence has written their data**, whatever the order
    and however often each of them came. -/
theorem written_eq {writeOk : Nat → Bool} {now : Nat} {log : List Upload.Event}
    {actor : Upload.UploadActor} (hrun : run (Upload.step writeOk) (Upload.new 0 now) log = some actor)
    (halive : actor.done = false)
    (hseqs : all.map SealedFrame.seq = (List.range all.length).map (seqAt 0))
    (hcount : all.length < 2 ^ 64) (hknown : ∀ p ∈ Upload.framesOf log, p ∈ itemsOf all)
    (hall : Received log (itemsOf all)) : Upload.written actor = all.map SealedFrame.data := by
  have hzero : (0 : UInt64).toNat = 0 := rfl
  have hlook := @lookup_received _ all hseqs hcount hknown hall
  have hend : (Upload.framesOf log).lookup (seqAt 0 all.length) = none := by
    rw [hlook hcount, List.getElem?_eq_none (Nat.le_refl _), Option.map_none]
  obtain ⟨r, _, hgap, hwrites⟩ := Upload.live_writes hrun halive ⟨_, UInt64.zero_le, hend⟩
  have hgap' : Upload.FirstGap 0 (Upload.framesOf log) (seqAt 0 all.length) := by
    refine ⟨UInt64.zero_le, hend, fun q _ hlt => ?_⟩
    rw [UInt64.lt_iff_toNat_lt, seqAt_toNat (by omega)] at hlt
    rw [← seqAt_zero_toNat q, hlook (by omega), List.getElem?_eq_getElem (by omega), Option.map_some]
    exact Option.some_ne_none _
  have hnext : r.nextSeq.toNat - (0 : UInt64).toNat = all.length := by
    rw [hgap.unique hgap', seqAt_toNat (by omega)]
    omega
  have hmap : (actor.writes.flatMap Prod.fst).map some = (all.map SealedFrame.data).map some := by
    rw [hwrites, hnext]
    apply List.ext_getElem
    · simp
    · intro i hi hi'
      have hlt : i < all.length := by simpa using hi
      simp [hlook (by omega : i < 2 ^ 64), hlt]
  have hsame := List.map_injective_iff.mpr (fun _ _ => Option.some.inj) hmap
  obtain ⟨r', hlive⟩ := (Upload.inv_run hrun).live halive
  rw [Upload.written, List.filter_eq_self.mpr hlive.allOk, hsame]

end Written

/-- The data of the frames, in a row, is what the client was given. -/
theorem Inv.data {key : LessSafeKey} {base122 : Base122Fast} {encoding : EncodingType}
    {writeOk : Nat → Bool} {early : List SealedFrame} {initial remaining : Bytes} {now : Nat} {s : Path}
    (hinitial : (early.map SealedFrame.data).flatten ++ remaining = initial)
    (h : Inv key base122 encoding writeOk early remaining now s)
    (hended : s.client.point.streamEnded = true) :
    ((early ++ s.client.shaped.frames).map SealedFrame.data).flatten = initial ++ s.client.socket := by
  obtain ⟨hraw, hcursor⟩ := h.client.ended hended
  have hbytes := h.client.conserved.bytes
  have hreader := h.client.reader
  rw [hraw, List.append_nil] at hbytes
  rw [hcursor, List.append_nil] at hreader
  rw [List.map_append, List.flatten_append, hbytes, hreader, ← List.append_assoc, hinitial]

theorem length_le_data {fs : List SealedFrame} (h : ∀ f ∈ fs, f.data ≠ []) :
    fs.length ≤ (fs.map SealedFrame.data).flatten.length := by
  induction fs with
  | nil => exact Nat.le_refl 0
  | cons f fs ih =>
    have hf := List.length_pos_iff.mpr (h f List.mem_cons_self)
    have hfs := ih fun g hg => h g (List.mem_cons_of_mem f hg)
    rw [List.map_cons, List.flatten_cons, List.length_append, List.length_cons]
    omega

/-- **End to end.**  The early data is always encoded.  From there, in every run in which the upload
    actor has not stopped (no overflow, timeout or failed write): when the input is over and all frames
    have been processed, in whatever order and however often the POSTs came, the bytes written upstream
    are the initial payload and then the bytes of the socket; and the upload loop returns `Ok` only when
    every POST it spawned has ended with a success. -/
theorem upload_end_to_end (key : LessSafeKey) (base122 : Base122Fast) (hkey : key.Lawful)
    (hseal : key.NeverFails) (hb : base122.Lawful) (config : ResolvedShaperConfig)
    (draw : UInt64 → Draw) (initial : Bytes) (uploadConcurrency maxInFlightBytes random now : Nat)
    (writeOk : Nat → Bool) :
    ∃ body remaining framesSent,
      encodeInitialPayload key base122 config draw initial MAX_RAW_PAYLOAD =
        .ok (body, remaining, framesSent) ∧
      ∀ (opening : List Feed) (es : List Event) (s : Path), Cuts opening body →
        run (step key base122 config.encoding writeOk) (.start
          (.new config uploadConcurrency maxInFlightBytes remaining framesSent random) opening now) es =
          some s →
        (AllProcessed s → s.actor.done = false →
          initial.length + s.client.socket.length < 2 ^ 64 →
          (Upload.written s.actor).flatten = initial ++ s.client.socket) ∧
        (s.client.point = .returned true → ∀ p ∈ s.client.posts, p.outcome = some .success) := by
  obtain ⟨early, remaining, hencoded, hinitial, hearly⟩ :=
    encodeInitialPayload_spec hseal initial MAX_RAW_PAYLOAD
  refine ⟨bytesOf early, remaining, seqAt 0 early.length, hencoded, fun opening es s hcuts hrun => ?_⟩
  have hinv : Inv key base122 config.encoding writeOk early remaining now s :=
    run_invariant (fun _ _ _ h hstep => inv_path hkey hseal hb h hstep) es _ _
      (inv_start hkey hb hearly hcuts writeOk remaining uploadConcurrency maxInFlightBytes random now)
      hrun
  refine ⟨fun hall halive hsize => ?_, fun hp => hinv.joins.all_succeeded hp⟩
  have hdata := hinv.data hinitial hall.2.1
  have hcount : (early ++ s.client.shaped.frames).length < 2 ^ 64 := by
    have hle : (early ++ s.client.shaped.frames).length ≤ _ := length_le_data fun f hf => by
      rcases List.mem_append.mp hf with hf | hf
      · exact (hearly.carries f hf).1
      · exact (hinv.client.conserved.carried f hf).1
    have htotal : (initial ++ s.client.socket).length < 2 ^ 64 := by rwa [List.length_append]
    rw [← hdata] at htotal
    exact Nat.lt_of_le_of_lt hle htotal
  have hknown : ∀ p ∈ Upload.framesOf s.log, p ∈ itemsOf (early ++ s.client.shaped.frames) := by
    intro p hp
    rw [itemsOf, List.map_append]
    exact List.mem_append.mpr (hinv.known p hp)
  rw [written_eq hinv.actor halive (hinv.seqs hearly) hcount hknown (hinv.all_received hkey hb hall),
    hdata]

/-- The key of 32 zero bytes, with the tags of the frames 0 of `[1]` and 1 of `[2]`. -/
def uploadKey : LessSafeKey :=
  streamKey [([0, 0, 0, 0, 0, 0, 0, 0, 0, 1, 1],
      [0x9c, 0x88, 0x3b, 0x10, 0x24, 0x46, 0x7a, 0x31, 0x5c, 0x65, 0x1d, 0xff, 0x2f, 0x9a, 0x2f, 0x44]),
    ([0, 0, 0, 0, 0, 0, 0, 1, 0, 1, 2],
      [0x81, 0x95, 0x68, 0x2f, 0x47, 0xb2, 0x13, 0xcc, 0xc1, 0x8d, 0x6e, 0x8d, 0x3c, 0xa1, 0x56, 0x9e])]

/-- The bytes of the frame 0 of `[1]` under that key. -/
def earlyBody : Bytes :=
  [0, 39] ++ .replicate 12 0 ++ [0xce, 0xa7, 0x40, 0x3d, 0x4d, 0x60, 0x6b, 0x6e, 0x07, 0x4f, 0xc4,
    0x9c, 0x88, 0x3b, 0x10, 0x24, 0x46, 0x7a, 0x31, 0x5c, 0x65, 0x1d, 0xff, 0x2f, 0x9a, 0x2f, 0x44]

/-- The bytes of the frame 1 of `[2]`. -/
def postBody : Bytes :=
  [0, 39] ++ .replicate 12 0 ++ [0xce, 0xa7, 0x40, 0x3d, 0x4d, 0x60, 0x6b, 0x6f, 0x07, 0x4f, 0xc7,
    0x81, 0x95, 0x68, 0x2f, 0x47, 0xb2, 0x13, 0xcc, 0xc1, 0x8d, 0x6e, 0x8d, 0x3c, 0xa1, 0x56, 0x9e]

/-- One frame early, one in a POST that reaches the server twice; the loop then returns. -/
def uploadEvents : List Event :=
  [.opening 1, .opening 2,
   .client (.turn ⟨.filled [2], false, demoDraw⟩), .client (.turn ⟨.pending, true, demoDraw⟩),
   .client (.turn ⟨.filled [], false, demoDraw⟩), .client .acquire, .client .acquire,
   .client .joinNone, .arrive 0 [.chunk postBody], .arrive 0 [.chunk postBody],
   .poll 1 3, .poll 0 4, .poll 0 5, .eos 0 6, .answer 0, .success 0, .client (.join 0),
   .client .joinNone]

/-- What is read off that run. -/
def uploadSummary (s : Path) : Bool × Bytes × Bool × Bool :=
  (s.actor.done, s.client.socket, decide (AllProcessed s), decide (s.client.point = .returned true))

theorem upload_end_to_end_demo :
    ∃ s, run (step uploadKey publishedBase122 .binary fun _ => true)
        (.start (.new demoConfig 4 20480 [] 1 0) [.chunk earlyBody] 0) uploadEvents = some s ∧
      AllProcessed s ∧ s.actor.done = false ∧ s.client.posts.length = 1 ∧
      (Upload.written s.actor).flatten = [1, 2] ∧ ∀ p ∈ s.client.posts, p.outcome = some .success := by
  have hkey : uploadKey.Lawful := streamKey_lawful (by decide)
  obtain ⟨body, remaining, framesSent, hencoded, hpath⟩ :=
    upload_end_to_end uploadKey publishedBase122 hkey (streamKey_neverFails _) publishedBase122_lawful
      demoConfig (fun _ => demoDraw) [1] 4 20480 0 0 (fun _ => true)
  have hearly : (encodeInitialPayload uploadKey publishedBase122 demoConfig (fun _ => demoDraw) [1]
      MAX_RAW_PAYLOAD).toOption = some (earlyBody, [], 1) := by decide +kernel
  rw [hencoded, Except.toOption, Option.some.injEq, Prod.mk.injEq, Prod.mk.injEq] at hearly
  obtain ⟨rfl, rfl, rfl⟩ := hearly
  have heval : (run (step uploadKey publishedBase122 .binary fun _ => true)
      (.start (.new demoConfig 4 20480 [] 1 0) [.chunk earlyBody] 0) uploadEvents).map
        (fun s => (uploadSummary s, s.client.posts.length)) =
      some ((false, [2], true, true), 1) := by decide +kernel
  obtain ⟨s, hrun, hs⟩ := Option.map_eq_some_iff.mp heval
  simp only [uploadSummary, Prod.mk.injEq, decide_eq_true_eq] at hs
  obtain ⟨⟨halive, hsocket, hall, hreturned⟩, hposts⟩ := hs
  obtain ⟨hwritten, hsuccess⟩ := hpath _ uploadEvents s ⟨fun e => by simp, by simp [fed]⟩ hrun
  refine ⟨s, hrun, hall, halive, hposts, ?_, hsuccess hreturned⟩
  rw [hwritten hall halive (by rw [hsocket]; decide), hsocket]
  rfl

end Httproxy.UploadPath
