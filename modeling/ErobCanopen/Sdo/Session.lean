/-
  ErobCanopen.Sdo.Session
  ───────────────────────
  **THE CLIENT, ITS SOCKET AND THE DRIVE, INTERLEAVED: WHOSE RESPONSE DOES A TRANSACTION TAKE?**

  `Sdo.Engine` decides one call of `receive_sdo_response` from the frames it reads.  Here the
  calls are put back into the system they run in.  The client runs a routine (`Prog`) and
  issues its `read_sdo`/`write_sdo` requests one at a time; each waits for frames on the
  socket, deciding each with `sdoVerdict`, until one decides it or its deadline passes.  The
  drive takes the requests in the order sent and answers each at most once and correctly —
  an upload response echoing the key for a read, a download response for a write, or an
  abort — at any time, also after the client has given up.  Frames of other nodes may
  arrive at any time.

  Every frame on the socket carries, as ghost state, the number of the request it answers,
  and the log of completed transactions records which frame decided each.  Since
  `receive_sdo_response` matches by COB-ID alone, a response that outlives its request is
  taken by the next one: a read returns the late acknowledgement of a write as the value 0
  (`late_ack_answers_read`), and a move can write a control word without its enable bits
  (`stale_ack_clears_enable_bits`).  In a timely run — the drive answers only the request the
  client waits for, and the client gives up only when no response to it is queued — every
  transaction that succeeds took its own request's response
  (`timely_success_takes_own_response`).

  Main results:
    * `Step`, `step_spec` — what one event can do, and the executable step that does it;
    * `Clean.step` — the invariant of timely runs, kept by every timely event;
    * `timely_success_takes_own_response` — in every timely run, from any routine and drive;
    * `session_refines_paths` — in every run, timely or not, the transactions complete once
      each and in order, and a routine that finishes has followed one of its paths, so what
      is proved of all paths of a routine holds of it in the session.
-/
import ErobCanopen.Drive.Cia402

namespace ErobCanopen

/-! ## §1. The system. -/

/-- An expedited upload response (`0x43`, four data bytes), echoing the request's key. -/
def uploadResponse (node : BitVec 8) (index : BitVec 16) (subindex : BitVec 8)
    (value : BitVec 32) : CanFrame :=
  sdoFrame (sdoServerCob node) 0x43 index subindex value

/-- A download response, echoing the request's key. -/
def downloadResponse (node : BitVec 8) (index : BitVec 16) (subindex : BitVec 8) : CanFrame :=
  sdoFrame (sdoServerCob node) 0x60 index subindex 0

/-- An abort, echoing the request's key, with its abort code. -/
def abortResponse (node : BitVec 8) (index : BitVec 16) (subindex : BitVec 8)
    (code : BitVec 32) : CanFrame :=
  sdoFrame (sdoServerCob node) 0x80 index subindex code

/-- A request that is a transaction: `read_sdo` or `write_sdo`. -/
def Op.isTransaction : Op → Bool
  | .read _ _ | .write _ _ _ => true
  | _ => false

/-- The drive applies a request and builds its response; a read reports `other` for what
    the drive model leaves open. -/
def Drive.serve (d : Drive) (node : BitVec 8) (other : BitVec 32) :
    Op → Option (CanFrame × Drive)
  | .read i s => some (uploadResponse node i s (d.value i other), d)
  | .write i s w => some (downloadResponse node i s, d.deliver i w)
  | _ => none

/-- The abort the drive sends instead of applying a request. -/
def abortFor (node : BitVec 8) (code : BitVec 32) : Op → Option CanFrame
  | .read i s | .write i s _ => some (abortResponse node i s code)
  | _ => none

/-- A frame on the client's socket, with the number of the request it answers (ghost);
    `none` for traffic of other nodes. -/
structure Arrival where
  answers : Option Nat
  frame : CanFrame

/-- A completed transaction: the request, its number, the answer the caller got, and the
    frame that decided it (`none` for a timeout or a failed send). -/
structure Outcome where
  op : Op
  id : Nat
  answer : Answer
  accepted : Option Arrival

/-- The exchange the routine saw. -/
def Outcome.exchange (o : Outcome) : Exchange := (o.op, o.answer)

/-- The client, the socket and the drive. -/
structure SdoSession (α : Type) where
  /-- What the client still has to run. -/
  prog : Prog α
  /-- The number of the request the client waits for. -/
  waiting : Option Nat
  /-- The number the next request gets. -/
  next : Nat
  /-- Frames received and not yet read by the client, oldest first. -/
  socket : List Arrival
  /-- Requests the drive has received and not dealt with, oldest first. -/
  inbox : List (Nat × Op)
  drive : Drive
  /-- Completed transactions, oldest first (ghost). -/
  log : List Outcome

/-- The session before the first request. -/
def SdoSession.start {α : Type} (prog : Prog α) (d : Drive) : SdoSession α :=
  ⟨prog, none, 0, [], [], d, []⟩

/-- What can happen next. -/
inductive Event where
  /-- The client sends its request. -/
  | send
  /-- Writing the request to the socket fails. -/
  | sendFail
  /-- The client sends an NMT command or prints a line. -/
  | internal
  /-- The client reads the oldest frame on its socket. -/
  | poll
  /-- The client's deadline passes. -/
  | timeout
  /-- The drive applies its oldest request and answers it (`reply`) or its answer is lost. -/
  | serve (reply : Bool) (other : BitVec 32)
  /-- The drive answers its oldest request with an abort. -/
  | refuse (code : BitVec 32)
  /-- The drive's oldest request is lost. -/
  | lose
  /-- The drive steps on its own. -/
  | spont (s : Spont)
  /-- A frame of another node arrives. -/
  | noise (f : CanFrame)

/-! ## §2. Steps. -/

section Steps

variable (node : BitVec 8) {α : Type}

/-- Everything one event can do. -/
inductive Step : SdoSession α → Event → SdoSession α → Prop where
  | send {s : SdoSession α} {op : Op} {k : Answer → Prog α} :
      s.prog = .call op k → s.waiting = none → op.isTransaction = true →
      Step s .send { s with waiting := some s.next, next := s.next + 1,
                            inbox := s.inbox ++ [(s.next, op)] }
  | sendFail {s : SdoSession α} {op : Op} {k : Answer → Prog α} :
      s.prog = .call op k → s.waiting = none → op.isTransaction = true →
      Step s .sendFail { s with prog := k none, next := s.next + 1,
                                log := s.log ++ [⟨op, s.next, none, none⟩] }
  | internal {s : SdoSession α} {op : Op} {k : Answer → Prog α} :
      s.prog = .call op k → s.waiting = none → op.isTransaction = false →
      Step s .internal { s with prog := k none }
  | skip {s : SdoSession α} {op : Op} {k : Answer → Prog α} {id : Nat} {a : Arrival}
      {rest : List Arrival} :
      s.prog = .call op k → s.waiting = some id → s.socket = a :: rest →
      sdoVerdict node a.frame = .skip → Step s .poll { s with socket := rest }
  | accept {s : SdoSession α} {op : Op} {k : Answer → Prog α} {id : Nat} {a : Arrival}
      {rest : List Arrival} {v : BitVec 32} :
      s.prog = .call op k → s.waiting = some id → s.socket = a :: rest →
      sdoVerdict node a.frame = .accept v →
      Step s .poll { s with prog := k (some v), waiting := none, socket := rest,
                            log := s.log ++ [⟨op, id, some v, some a⟩] }
  | abort {s : SdoSession α} {op : Op} {k : Answer → Prog α} {id : Nat} {a : Arrival}
      {rest : List Arrival} :
      s.prog = .call op k → s.waiting = some id → s.socket = a :: rest →
      sdoVerdict node a.frame = .abort →
      Step s .poll { s with prog := k none, waiting := none, socket := rest,
                            log := s.log ++ [⟨op, id, none, some a⟩] }
  | timeout {s : SdoSession α} {op : Op} {k : Answer → Prog α} {id : Nat} :
      s.prog = .call op k → s.waiting = some id →
      Step s .timeout { s with prog := k none, waiting := none,
                               log := s.log ++ [⟨op, id, none, none⟩] }
  | serve {s : SdoSession α} {r : Nat × Op} {rest : List (Nat × Op)} {reply : Bool}
      {other : BitVec 32} {f : CanFrame} {d : Drive} :
      s.inbox = r :: rest → s.drive.serve node other r.2 = some (f, d) →
      Step s (.serve reply other)
        { s with inbox := rest, drive := d,
                 socket := if reply then s.socket ++ [⟨some r.1, f⟩] else s.socket }
  | refuse {s : SdoSession α} {r : Nat × Op} {rest : List (Nat × Op)} {code : BitVec 32}
      {f : CanFrame} :
      s.inbox = r :: rest → abortFor node code r.2 = some f →
      Step s (.refuse code) { s with inbox := rest, socket := s.socket ++ [⟨some r.1, f⟩] }
  | lose {s : SdoSession α} {r : Nat × Op} {rest : List (Nat × Op)} :
      s.inbox = r :: rest → Step s .lose { s with inbox := rest }
  | spont {s : SdoSession α} (sp : Spont) : Step s (.spont sp) { s with drive := s.drive.spont sp }
  | noise {s : SdoSession α} {f : CanFrame} :
      f.can_id ≠ sdoServerCob node →
      Step s (.noise f) { s with socket := s.socket ++ [⟨none, f⟩] }

/-- The client's side of an event. -/
def SdoSession.clientStep (s : SdoSession α) : Event → Option (SdoSession α)
  | .send =>
    match s.prog, s.waiting with
    | .call op _, none =>
      if op.isTransaction then
        some { s with waiting := some s.next, next := s.next + 1,
                      inbox := s.inbox ++ [(s.next, op)] }
      else none
    | _, _ => none
  | .sendFail =>
    match s.prog, s.waiting with
    | .call op k, none =>
      if op.isTransaction then
        some { s with prog := k none, next := s.next + 1,
                      log := s.log ++ [⟨op, s.next, none, none⟩] }
      else none
    | _, _ => none
  | .internal =>
    match s.prog, s.waiting with
    | .call op k, none => if op.isTransaction then none else some { s with prog := k none }
    | _, _ => none
  | .poll =>
    match s.prog, s.waiting, s.socket with
    | .call op k, some id, a :: rest =>
      match sdoVerdict node a.frame with
      | .skip => some { s with socket := rest }
      | .accept v => some { s with prog := k (some v), waiting := none, socket := rest,
                                   log := s.log ++ [⟨op, id, some v, some a⟩] }
      | .abort => some { s with prog := k none, waiting := none, socket := rest,
                                log := s.log ++ [⟨op, id, none, some a⟩] }
    | _, _, _ => none
  | .timeout =>
    match s.prog, s.waiting with
    | .call op k, some id => some { s with prog := k none, waiting := none,
                                           log := s.log ++ [⟨op, id, none, none⟩] }
    | _, _ => none
  | _ => none

/-- The drive's side of an event. -/
def SdoSession.driveStep (s : SdoSession α) : Event → Option (SdoSession α)
  | .serve reply other =>
    match s.inbox with
    | r :: rest =>
      (s.drive.serve node other r.2).map fun fd =>
        { s with inbox := rest, drive := fd.2,
                 socket := if reply then s.socket ++ [⟨some r.1, fd.1⟩] else s.socket }
    | [] => none
  | .refuse code =>
    match s.inbox with
    | r :: rest => (abortFor node code r.2).map fun f =>
        { s with inbox := rest, socket := s.socket ++ [⟨some r.1, f⟩] }
    | [] => none
  | .lose =>
    match s.inbox with
    | _ :: rest => some { s with inbox := rest }
    | [] => none
  | .spont sp => some { s with drive := s.drive.spont sp }
  | .noise f =>
    if f.can_id = sdoServerCob node then none
    else some { s with socket := s.socket ++ [⟨none, f⟩] }
  | _ => none

/-- One event, executed: `none` when it cannot happen. -/
def SdoSession.step (s : SdoSession α) (e : Event) : Option (SdoSession α) :=
  match e with
  | .send | .sendFail | .internal | .poll | .timeout => s.clientStep node e
  | _ => s.driveStep node e

/-- Events one after the other. -/
def SdoSession.steps (s : SdoSession α) (evs : List Event) : Option (SdoSession α) :=
  evs.foldlM (fun s e => s.step node e) s

theorem SdoSession.step_spec {s s' : SdoSession α} {e : Event} (h : s.step node e = some s') :
    Step node s e s' := by
  cases e with
  | send =>
    simp only [SdoSession.step, SdoSession.clientStep] at h
    split at h
    · rename_i op k hp hw
      split at h
      · cases h; exact .send hp hw ‹_›
      · cases h
    · cases h
  | sendFail =>
    simp only [SdoSession.step, SdoSession.clientStep] at h
    split at h
    · rename_i op k hp hw
      split at h
      · cases h; exact .sendFail hp hw ‹_›
      · cases h
    · cases h
  | internal =>
    simp only [SdoSession.step, SdoSession.clientStep] at h
    split at h
    · rename_i op k hp hw
      split at h
      · cases h
      · rename_i hn
        cases h; exact .internal hp hw (Bool.eq_false_iff.mpr hn)
    · cases h
  | poll =>
    simp only [SdoSession.step, SdoSession.clientStep] at h
    split at h
    · rename_i op k id a rest hp hw hs
      split at h <;> cases h
      · exact .skip hp hw hs ‹_›
      · exact .accept hp hw hs ‹_›
      · exact .abort hp hw hs ‹_›
    · cases h
  | timeout =>
    simp only [SdoSession.step, SdoSession.clientStep] at h
    split at h
    · rename_i op k id hp hw
      cases h; exact .timeout hp hw
    · cases h
  | serve reply other =>
    simp only [SdoSession.step, SdoSession.driveStep] at h
    split at h
    · rename_i r rest hi
      obtain ⟨⟨f, d⟩, hfd, rfl⟩ := Option.map_eq_some'.mp h
      exact .serve hi hfd
    · cases h
  | refuse code =>
    simp only [SdoSession.step, SdoSession.driveStep] at h
    split at h
    · rename_i r rest hi
      obtain ⟨f, hf, rfl⟩ := Option.map_eq_some'.mp h
      exact .refuse hi hf
    · cases h
  | lose =>
    simp only [SdoSession.step, SdoSession.driveStep] at h
    split at h
    · cases h; exact .lose ‹_›
    · cases h
  | spont sp =>
    cases h; exact .spont sp
  | noise f =>
    simp only [SdoSession.step, SdoSession.driveStep] at h
    split at h
    · cases h
    · cases h; exact .noise ‹_›

/-- A run in which every event meets `ok` where it happens. -/
inductive Run (ok : SdoSession α → Event → Prop) :
    SdoSession α → List Event → SdoSession α → Prop where
  | nil (s : SdoSession α) : Run ok s [] s
  | cons {s s' s'' : SdoSession α} {e : Event} {evs : List Event} :
      ok s e → Step node s e s' → Run ok s' evs s'' → Run ok s (e :: evs) s''

/-- Events one after the other, each checked by `ok` first. -/
def SdoSession.stepsWhen (ok : SdoSession α → Event → Bool) (s : SdoSession α)
    (evs : List Event) : Option (SdoSession α) :=
  evs.foldlM (fun s e => if ok s e then s.step node e else none) s

theorem run_of_stepsWhen {ok : SdoSession α → Event → Bool} :
    ∀ {evs : List Event} {s s' : SdoSession α}, s.stepsWhen node ok evs = some s' →
      Run node (fun s e => ok s e = true) s evs s'
  | [], s, s', h => by cases h; exact .nil s
  | e :: evs, s, s', h => by
    simp only [SdoSession.stepsWhen, List.foldlM_cons] at h
    split at h
    · rename_i hok
      cases hs : s.step node e with
      | none => simp [hs] at h
      | some s₁ =>
        rw [hs] at h
        exact .cons hok (SdoSession.step_spec node hs) (run_of_stepsWhen h)
    · simp at h

/-! ## §3. Late responses. -/

/-- Write the control word, then read it back. -/
def writeThenRead : Prog Answer := do
  let _ ← write_sdo 0x6040 0 0x0F
  read_sdo 0x6040 0

/-- The write times out; its acknowledgement comes while the read waits, and the read takes
    it: the read of request 1 returns 0 having accepted the response to request 0. -/
theorem late_ack_answers_read :
    ((SdoSession.start writeThenRead enabledDrive).stepsWhen 2 (fun _ _ => true)
        [.send, .timeout, .send, .serve true 0, .poll]).map
      (fun s => s.log.map fun o => (o.id, o.answer, o.accepted.map Arrival.answers)) =
      some [(0, none, none), (1, some 0, some (some 0))] := by
  decide

/-- A move against a drive holding `0x0F`: its position read times out and its answer comes
    late, so the target write takes it, the control-word read takes the target write's
    acknowledgement as the value 0, and the move writes `0x10`, which the drive applies: the
    enable bits 0–3 are gone. -/
theorem stale_ack_clears_enable_bits :
    ((SdoSession.start (execute_position_move 1000) enabledDrive).stepsWhen 2 (fun _ _ => true)
        [.send, .timeout, .send, .serve true 0, .poll, .serve true 0, .send, .poll, .send,
          .serve true 0, .poll, .serve true 0]).map
      (fun s => (writesTo 0x6040 (s.log.map Outcome.exchange), s.drive.control_word)) =
      some ([0x10], 0x10) := by
  decide

/-! ## §4. Timely runs. -/

/-- The events of a timely run: the drive answers only the request the client waits for,
    and the client gives up only when no response to its request is on the socket. -/
def timely (s : SdoSession α) : Event → Bool
  | .serve true _ | .refuse _ => s.inbox.head?.any fun r => s.waiting == some r.1
  | .timeout => s.socket.all fun a => a.answers != s.waiting
  | _ => true

/-- `f` is the drive's response to a request for `op`: an upload response echoing its key
    for a read, a download response for a write, or an abort. -/
def Responds (op : Op) (f : CanFrame) : Prop :=
  match op with
  | .read i s => (∃ v, f = uploadResponse node i s v) ∨ ∃ c, f = abortResponse node i s c
  | .write i s _ => f = downloadResponse node i s ∨ ∃ c, f = abortResponse node i s c
  | _ => False

/-- A transaction that succeeded took its own request's response: for a read, an upload
    response for its key whose payload is the value returned; for a write, a download
    response for its key. -/
def OwnResponse (o : Outcome) : Prop :=
  ∀ v, o.answer = some v → ∃ f, o.accepted = some ⟨some o.id, f⟩ ∧
    match o.op with
    | .read i s => (∃ v', f = uploadResponse node i s v') ∧ v = payload f
    | .write i s _ => f = downloadResponse node i s
    | _ => False

theorem sdoVerdict_uploadResponse (i : BitVec 16) (s : BitVec 8) (v : BitVec 32) :
    sdoVerdict node (uploadResponse node i s v) =
      .accept (payload (uploadResponse node i s v)) := by
  simp only [sdoVerdict, uploadResponse, sdoFrame_can_id, cmdClass, sdoFrame_cmd]
  rfl

theorem sdoVerdict_downloadResponse (i : BitVec 16) (s : BitVec 8) :
    sdoVerdict node (downloadResponse node i s) = .accept 0 := by
  simp only [sdoVerdict, downloadResponse, sdoFrame_can_id, cmdClass, sdoFrame_cmd]
  rfl

theorem sdoVerdict_abortResponse (i : BitVec 16) (s : BitVec 8) (c : BitVec 32) :
    sdoVerdict node (abortResponse node i s c) = .abort := by
  simp only [sdoVerdict, abortResponse, sdoFrame_can_id, cmdClass, sdoFrame_cmd, if_true]
  simp

theorem Drive.serve_responds {d d' : Drive} {other : BitVec 32} {op : Op} {f : CanFrame}
    (h : d.serve node other op = some (f, d')) : Responds node op f := by
  cases op with
  | read i s => cases h; exact .inl ⟨_, rfl⟩
  | write i s w => cases h; exact .inl rfl
  | _ => cases h

theorem abortFor_responds {code : BitVec 32} {op : Op} {f : CanFrame}
    (h : abortFor node code op = some f) : Responds node op f := by
  cases op with
  | read i s => cases h; exact .inr ⟨_, rfl⟩
  | write i s w => cases h; exact .inr ⟨_, rfl⟩
  | _ => cases h

/-- A response the client accepts is its request's own, as `OwnResponse` says. -/
theorem ownResponse_of_accept {op : Op} {id : Nat} {a : Arrival} {v : BitVec 32}
    (hid : a.answers = some id) (hr : Responds node op a.frame)
    (hv : sdoVerdict node a.frame = .accept v) :
    OwnResponse node ⟨op, id, some v, some a⟩ := by
  obtain ⟨answers, f⟩ := a
  obtain rfl : answers = some id := hid
  intro v' hv'
  obtain rfl := Option.some_inj.mp hv'
  refine ⟨f, rfl, ?_⟩
  cases op with
  | read i s =>
    rcases hr with ⟨u, rfl⟩ | ⟨c, rfl⟩
    · rw [sdoVerdict_uploadResponse] at hv
      exact ⟨⟨u, rfl⟩, (Verdict.accept.inj hv).symm⟩
    · rw [sdoVerdict_abortResponse] at hv; cases hv
  | write i s w =>
    rcases hr with rfl | ⟨c, rfl⟩
    · rfl
    · rw [sdoVerdict_abortResponse] at hv; cases hv
  | _ => exact hr.elim

/-- What holds all along a timely run. -/
structure Clean (s : SdoSession α) : Prop where
  /-- A frame from the node's SDO server is tagged. -/
  untagged : ∀ a ∈ s.socket, a.answers = none → a.frame.can_id ≠ sdoServerCob node
  /-- A tagged frame answers the request the client waits for, is a response to its
      request, and that request is no longer with the drive. -/
  tagged : ∀ a ∈ s.socket, ∀ id, a.answers = some id →
    s.waiting = some id ∧ (∃ op k, s.prog = .call op k ∧ Responds node op a.frame) ∧
      ∀ r ∈ s.inbox, r.1 ≠ id
  /-- At most one frame is tagged. -/
  single : (s.socket.filter fun a => a.answers.isSome).length ≤ 1
  inbox_lt : ∀ r ∈ s.inbox, r.1 < s.next
  inbox_nodup : (s.inbox.map Prod.fst).Nodup
  /-- The request the client waits for, while with the drive, is the one it is running. -/
  waiting_op : ∀ r ∈ s.inbox, s.waiting = some r.1 → ∃ k, s.prog = .call r.2 k
  log_own : ∀ o ∈ s.log, OwnResponse node o

variable {node}

theorem Clean.untagged_of_waiting_none {s : SdoSession α} (hc : Clean node s)
    (hw : s.waiting = none) : ∀ a ∈ s.socket, a.answers = none := by
  intro a ha
  cases h : a.answers with
  | none => rfl
  | some id => exact absurd ((hc.tagged a ha id h).1.symm.trans hw) (by simp)

theorem rest_untagged {a : Arrival} {rest : List Arrival} (ha : a.answers.isSome)
    (h : ((a :: rest).filter fun a => a.answers.isSome).length ≤ 1) :
    ∀ b ∈ rest, b.answers = none := by
  rw [List.filter_cons, if_pos ha, List.length_cons, Nat.add_le_add_iff_right,
    Nat.le_zero, List.length_eq_zero, List.filter_eq_nil_iff] at h
  intro b hb
  simpa using h b hb

/-- The frame that decides a transaction is tagged with its number and responds to its
    request; no other tagged frame is left behind it. -/
theorem Clean.decided {s : SdoSession α} (hc : Clean node s) {op : Op} {k : Answer → Prog α}
    {id : Nat} {a : Arrival} {rest : List Arrival} (hp : s.prog = .call op k)
    (hw : s.waiting = some id) (hs : s.socket = a :: rest)
    (hv : sdoVerdict node a.frame ≠ .skip) :
    a.answers = some id ∧ Responds node op a.frame ∧ ∀ b ∈ rest, b.answers = none := by
  have ha : a ∈ s.socket := hs ▸ List.mem_cons_self a rest
  obtain ⟨id', hid⟩ : ∃ id', a.answers = some id' := by
    cases h : a.answers with
    | none => exact absurd (can_id_of_sdoVerdict_ne_skip hv) (hc.untagged a ha h)
    | some id' => exact ⟨id', rfl⟩
  obtain ⟨hw', ⟨op', k', hp', hr⟩, -⟩ := hc.tagged a ha id' hid
  obtain rfl : id' = id := Option.some_inj.mp (hw'.symm.trans hw)
  obtain ⟨rfl, -⟩ := Prog.call.inj (hp'.symm.trans hp)
  have hsingle := hc.single
  rw [hs] at hsingle
  exact ⟨hid, hr, rest_untagged (by simp [hid]) hsingle⟩

theorem Clean.send {s : SdoSession α} (hc : Clean node s) {op : Op} {k : Answer → Prog α}
    (hp : s.prog = .call op k) (hw : s.waiting = none) :
    Clean node { s with waiting := some s.next, next := s.next + 1,
                        inbox := s.inbox ++ [(s.next, op)] } := by
  have hu := hc.untagged_of_waiting_none hw
  refine ⟨hc.untagged, fun a ha id hid => absurd (hu a ha) (by simp [hid]), hc.single,
    fun r hr => ?_, ?_, fun r hr hwr => ?_, hc.log_own⟩
  · rcases List.mem_append.mp hr with hr | hr
    · exact Nat.lt_succ_of_lt (hc.inbox_lt r hr)
    · rw [List.mem_singleton.mp hr]; exact Nat.lt_succ_self _
  · rw [List.map_append]
    refine List.pairwise_append.mpr ⟨hc.inbox_nodup, List.pairwise_singleton _ _,
      fun x hx y hy => ?_⟩
    obtain ⟨r, hr, rfl⟩ := List.mem_map.mp hx
    rw [List.map_singleton, List.mem_singleton] at hy
    exact hy ▸ Nat.ne_of_lt (hc.inbox_lt r hr)
  · rcases List.mem_append.mp hr with hr | hr
    · exact absurd (Option.some_inj.mp hwr) (Nat.ne_of_gt (hc.inbox_lt r hr))
    · rw [List.mem_singleton.mp hr]; exact ⟨k, hp⟩

/-- A step of the client that leaves the socket and the inbox alone and logs no success
    keeps the invariant once the client no longer waits. -/
theorem Clean.idle {s : SdoSession α} (hc : Clean node s)
    (hu : ∀ a ∈ s.socket, a.answers = none)
    (prog : Prog α) (next : Nat) (hn : s.next ≤ next) (new : List Outcome)
    (hnew : ∀ o ∈ new, o.answer = none) :
    Clean node { s with prog := prog, waiting := none, next := next, log := s.log ++ new } := by
  refine ⟨hc.untagged, fun a ha id hid => absurd (hu a ha) (by simp [hid]), hc.single,
    fun r hr => Nat.lt_of_lt_of_le (hc.inbox_lt r hr) hn, hc.inbox_nodup,
    fun r _ hwr => absurd hwr (by simp), fun o ho => ?_⟩
  rcases List.mem_append.mp ho with ho | ho
  · exact hc.log_own o ho
  · intro v hv; rw [hnew o ho] at hv; cases hv

/-- The client reads its socket's oldest frame and goes on waiting. -/
theorem Clean.skip {s : SdoSession α} (hc : Clean node s) {a : Arrival} {rest : List Arrival}
    (hs : s.socket = a :: rest) : Clean node { s with socket := rest } := by
  have hmem : ∀ b ∈ rest, b ∈ s.socket := fun b hb => hs ▸ List.mem_cons_of_mem a hb
  refine ⟨fun b hb => hc.untagged b (hmem b hb), fun b hb => hc.tagged b (hmem b hb), ?_,
    hc.inbox_lt, hc.inbox_nodup, hc.waiting_op, hc.log_own⟩
  have := hc.single
  rw [hs] at this
  exact Nat.le_trans ((List.sublist_cons_self a rest).filter _).length_le this

/-- The drive drops or silently applies its oldest request. -/
theorem Clean.drop {s : SdoSession α} (hc : Clean node s) {r : Nat × Op}
    {rest : List (Nat × Op)} (hi : s.inbox = r :: rest) (d : Drive) :
    Clean node { s with inbox := rest, drive := d } := by
  have hmem : ∀ r' ∈ rest, r' ∈ s.inbox := fun r' h' => hi ▸ List.mem_cons_of_mem r h'
  refine ⟨hc.untagged, fun a ha id hid => ?_, hc.single, fun r' h' => hc.inbox_lt r' (hmem r' h'),
    ?_, fun r' h' => hc.waiting_op r' (hmem r' h'), hc.log_own⟩
  · obtain ⟨h1, h2, h3⟩ := hc.tagged a ha id hid
    exact ⟨h1, h2, fun r' h' => h3 r' (hmem r' h')⟩
  · have := hc.inbox_nodup
    rw [hi, List.map_cons] at this
    exact this.of_cons

/-- The drive answers the request the client waits for. -/
theorem Clean.respond {s : SdoSession α} (hc : Clean node s) {r : Nat × Op}
    {rest : List (Nat × Op)} (hi : s.inbox = r :: rest) (hw : s.waiting = some r.1)
    {f : CanFrame} (hr : Responds node r.2 f) (d : Drive) :
    Clean node { s with inbox := rest, drive := d, socket := s.socket ++ [⟨some r.1, f⟩] } := by
  have hd := hc.drop hi d
  have hrin : r ∈ s.inbox := hi ▸ List.mem_cons_self r rest
  have hu : ∀ a ∈ s.socket, a.answers = none := by
    intro a ha
    cases hid : a.answers with
    | none => rfl
    | some id =>
      obtain ⟨h1, -, h3⟩ := hc.tagged a ha id hid
      exact absurd (Option.some_inj.mp (h1.symm.trans hw)).symm (h3 r hrin)
  have hfresh : ∀ r' ∈ rest, r'.1 ≠ r.1 := by
    have := hc.inbox_nodup
    rw [hi, List.map_cons, List.nodup_cons] at this
    exact fun r' h' he => this.1 (he ▸ List.mem_map_of_mem Prod.fst h')
  refine ⟨fun a ha hn => ?_, fun a ha id hid => ?_, ?_, hd.inbox_lt, hd.inbox_nodup,
    hd.waiting_op, hc.log_own⟩
  · rcases List.mem_append.mp ha with ha | ha
    · exact hc.untagged a ha hn
    · rw [List.mem_singleton.mp ha] at hn; cases hn
  · rcases List.mem_append.mp ha with ha | ha
    · rw [hu a ha] at hid; cases hid
    · obtain rfl := List.mem_singleton.mp ha
      obtain rfl := Option.some_inj.mp hid
      obtain ⟨k, hp⟩ := hc.waiting_op r hrin hw
      exact ⟨hw, ⟨r.2, k, hp, hr⟩, hfresh⟩
  · rw [List.filter_append, List.filter_eq_nil_iff.mpr (fun a ha => by simp [hu a ha])]
    simp

/-- The client takes a frame that decides its transaction. -/
theorem Clean.decide_with {s : SdoSession α} (hc : Clean node s) {op : Op} {k : Answer → Prog α}
    {id : Nat} {a : Arrival} {rest : List Arrival} (hp : s.prog = .call op k)
    (hw : s.waiting = some id) (hs : s.socket = a :: rest) (hv : sdoVerdict node a.frame ≠ .skip)
    (prog : Prog α) (answer : Answer) (hown : Responds node op a.frame → a.answers = some id →
      OwnResponse node ⟨op, id, answer, some a⟩) :
    Clean node { s with prog := prog, waiting := none, socket := rest,
                        log := s.log ++ [⟨op, id, answer, some a⟩] } := by
  obtain ⟨hid, hr, hrest⟩ := hc.decided hp hw hs hv
  have hsk := hc.skip hs
  refine ⟨hsk.untagged, fun b hb id' hid' => absurd (hrest b hb) (by simp [hid']), ?_,
    hc.inbox_lt, hc.inbox_nodup, fun r _ hwr => absurd hwr (by simp), fun o ho => ?_⟩
  · rw [List.filter_eq_nil_iff.mpr (fun b hb => by simp [hrest b hb])]
    simp
  · rcases List.mem_append.mp ho with ho | ho
    · exact hc.log_own o ho
    · rw [List.mem_singleton.mp ho]; exact hown hr hid

/-- Every timely event keeps the invariant. -/
theorem Clean.step {s s' : SdoSession α} {e : Event} (hc : Clean node s)
    (ht : timely s e = true) (h : Step node s e s') : Clean node s' := by
  cases h with
  | send hp hw _ => exact hc.send hp hw
  | sendFail hp hw _ =>
    simpa [hw] using hc.idle (hc.untagged_of_waiting_none hw) _ _ (Nat.le_succ _) _
      (fun o ho => by rw [List.mem_singleton.mp ho])
  | internal hp hw _ =>
    simpa [hw] using hc.idle (hc.untagged_of_waiting_none hw) _ _ le_rfl [] (by simp)
  | skip _ _ hs _ => exact hc.skip hs
  | accept hp hw hs hv =>
    exact hc.decide_with hp hw hs (by simp [hv]) _ _ fun hr hid =>
      ownResponse_of_accept node hid hr hv
  | abort hp hw hs hv =>
    exact hc.decide_with hp hw hs (by simp [hv]) _ _ fun _ _ v hv' => by cases hv'
  | timeout hp hw =>
    have hu : ∀ a ∈ s.socket, a.answers = none := by
      intro a ha
      cases hid : a.answers with
      | none => rfl
      | some id' =>
        have := List.all_eq_true.mp ht a ha
        rw [hid, (hc.tagged a ha id' hid).1] at this
        simp at this
    simpa using hc.idle hu _ _ le_rfl _ (fun o ho => by rw [List.mem_singleton.mp ho])
  | serve hi hfd =>
    rename_i r rest reply other f d
    cases reply with
    | false => exact hc.drop hi d
    | true =>
      have hw : s.waiting = some r.1 := by simpa [timely, hi] using ht
      exact hc.respond hi hw (Drive.serve_responds node hfd) d
  | refuse hi hf =>
    rename_i r rest code f
    have hw : s.waiting = some r.1 := by simpa [timely, hi] using ht
    exact hc.respond hi hw (abortFor_responds node hf) s.drive
  | lose hi => exact hc.drop hi s.drive
  | spont sp => exact ⟨hc.untagged, hc.tagged, hc.single, hc.inbox_lt, hc.inbox_nodup,
      hc.waiting_op, hc.log_own⟩
  | noise hf =>
    refine ⟨fun a ha hn => ?_, fun a ha id hid => ?_, ?_, hc.inbox_lt, hc.inbox_nodup,
      hc.waiting_op, hc.log_own⟩
    · rcases List.mem_append.mp ha with ha | ha
      · exact hc.untagged a ha hn
      · rw [List.mem_singleton.mp ha]; exact hf
    · rcases List.mem_append.mp ha with ha | ha
      · exact hc.tagged a ha id hid
      · rw [List.mem_singleton.mp ha] at hid; cases hid
    · simpa [List.filter_append] using hc.single

theorem Clean.start (prog : Prog α) (d : Drive) : Clean node (SdoSession.start prog d) :=
  ⟨by simp [SdoSession.start], by simp [SdoSession.start], by simp [SdoSession.start],
    by simp [SdoSession.start], List.nodup_nil, by simp [SdoSession.start],
    by simp [SdoSession.start]⟩

theorem Clean.run {s s' : SdoSession α} {evs : List Event} (hc : Clean node s)
    (h : Run node (fun s e => timely s e = true) s evs s') : Clean node s' := by
  induction h with
  | nil => exact hc
  | cons ht hs _ ih => exact ih (hc.step ht hs)

theorem timely_success_takes_own_response (node : BitVec 8) (prog : Prog α) (d : Drive)
    {evs : List Event} {s : SdoSession α}
    (h : Run node (fun s e => timely s e = true) (SdoSession.start prog d) evs s) :
    ∀ o ∈ s.log, OwnResponse node o :=
  ((Clean.start prog d).run h).log_own

/-- Both transactions of `writeThenRead` answered at once. -/
theorem prompt_run_takes_own_responses :
    ∃ s, Run 2 (fun s e => timely s e = true) (SdoSession.start writeThenRead enabledDrive)
        [.send, .serve true 0, .poll, .send, .serve true 0, .poll] s ∧
      ∀ o ∈ s.log, OwnResponse 2 o := by
  obtain ⟨s, hs⟩ : ∃ s, (SdoSession.start writeThenRead enabledDrive).stepsWhen 2 timely
      [.send, .serve true 0, .poll, .send, .serve true 0, .poll] = some s := ⟨_, rfl⟩
  exact ⟨s, run_of_stepsWhen 2 hs,
    timely_success_takes_own_response 2 writeThenRead enabledDrive (run_of_stepsWhen 2 hs)⟩

/-! ## §5. What the routine sees.

  Whatever the interleaving — late responses taken by the wrong request, aborts, lost
  requests, traffic of other nodes, timely or not — the client completes its transactions
  one at a time, each once and in the order it sent them, and the answers its routine gets
  are those of a path of the routine in which every other request is answered `none`.  So a
  property of every path of a routine (`Prog.Path`), such as the run lemmas of `main`, holds
  of the routine when it runs in the session. -/

/-- The routine `p` has become `p'`, its transactions having got the exchanges `t` and its
    other requests (NMT commands, printed lines) the answer `none`. -/
inductive Reach : Prog α → List Exchange → Prog α → Prop where
  | refl (p : Prog α) : Reach p [] p
  | transaction {op : Op} {k : Answer → Prog α} {t : List Exchange} {p' : Prog α} (r : Answer) :
      op.isTransaction = true → Reach (k r) t p' → Reach (.call op k) ((op, r) :: t) p'
  | internal {op : Op} {k : Answer → Prog α} {t : List Exchange} {p' : Prog α} :
      op.isTransaction = false → Reach (k none) t p' → Reach (.call op k) t p'

theorem Reach.trans {p p₁ p₂ : Prog α} {t₁ t₂ : List Exchange} (h₁ : Reach p t₁ p₁)
    (h₂ : Reach p₁ t₂ p₂) : Reach p (t₁ ++ t₂) p₂ := by
  induction h₁ with
  | refl => exact h₂
  | transaction r hop _ ih => exact .transaction r hop (ih h₂)
  | internal hop _ ih => exact .internal hop (ih h₂)

theorem Reach.snoc_transaction {p : Prog α} {t : List Exchange} {op : Op} {k : Answer → Prog α}
    (h : Reach p t (.call op k)) (hop : op.isTransaction = true) (r : Answer) :
    Reach p (t ++ [(op, r)]) (k r) :=
  h.trans (.transaction r hop (.refl _))

theorem Reach.snoc_internal {p : Prog α} {t : List Exchange} {op : Op} {k : Answer → Prog α}
    (h : Reach p t (.call op k)) (hop : op.isTransaction = false) : Reach p t (k none) := by
  simpa using h.trans (.internal hop (.refl _))

/-- A path from where the routine has got to extends to a path of the whole routine. -/
theorem Reach.extend {p p' : Prog α} {t : List Exchange} (h : Reach p t p') {a : α}
    {t' : List Exchange} (hp : Prog.Path p' a t') : ∃ t'', Prog.Path p a t'' ∧ t' <:+ t'' := by
  induction h with
  | refl => exact ⟨t', hp, List.suffix_refl t'⟩
  | transaction r _ _ ih =>
    obtain ⟨t'', hp'', hs⟩ := ih hp
    exact ⟨_, .call r hp'', hs.trans (List.suffix_cons _ _)⟩
  | internal _ _ ih =>
    obtain ⟨t'', hp'', hs⟩ := ih hp
    exact ⟨_, .call none hp'', hs.trans (List.suffix_cons _ _)⟩

/-- A routine that has finished followed a path: its transactions are the exchanges reached
    through, its other requests answered `none`. -/
theorem Reach.path {p p' : Prog α} {t : List Exchange} (h : Reach p t p') :
    ∀ a, p' = .pure a → ∃ t', Prog.Path p a t' ∧
      t'.filter (fun e => e.1.isTransaction) = t ∧ ∀ e ∈ t', e.1.isTransaction = false → e.2 = none := by
  induction h with
  | refl => rintro a rfl; exact ⟨[], .pure a, rfl, fun _ h => nomatch h⟩
  | transaction r hop _ ih =>
    intro a ha
    obtain ⟨t', hp, hf, hn⟩ := ih a ha
    refine ⟨_, .call r hp, by simp [List.filter_cons, hop, hf], fun e he he' => ?_⟩
    rcases List.mem_cons.mp he with rfl | he
    · rw [hop] at he'; cases he'
    · exact hn e he he'
  | internal hop _ ih =>
    intro a ha
    obtain ⟨t', hp, hf, hn⟩ := ih a ha
    refine ⟨_, .call none hp, by simp [List.filter_cons, hop, hf], fun e he he' => ?_⟩
    rcases List.mem_cons.mp he with rfl | he
    · rfl
    · exact hn e he he'

/-- What every reachable state of a session owes the routine `prog` it started with. -/
structure Reflects (prog : Prog α) (s : SdoSession α) : Prop where
  /-- The routine has got the answers the log records. -/
  reach : Reach prog (s.log.map Outcome.exchange) s.prog
  /-- The completed transactions are the requests `0, 1, …`, each once, in order. -/
  ids : s.log.map Outcome.id = List.range s.log.length
  /-- Between transactions the next request number is the number completed. -/
  idle : s.waiting = none → s.next = s.log.length
  /-- The request waited for is the next to complete, and the routine is running it. -/
  busy : ∀ id, s.waiting = some id → id = s.log.length ∧ s.next = id + 1 ∧
    ∃ op k, s.prog = .call op k ∧ op.isTransaction = true

theorem Reflects.start (prog : Prog α) (d : Drive) : Reflects prog (SdoSession.start prog d) :=
  ⟨.refl prog, rfl, fun _ => rfl, fun _ h => nomatch h⟩

/-- Completing the transaction the client waits for, with the answer `r`. -/
theorem Reflects.complete {prog : Prog α} {s : SdoSession α} (hr : Reflects prog s) {op : Op}
    {k : Answer → Prog α} {id : Nat} (hp : s.prog = .call op k) (hw : s.waiting = some id)
    (r : Answer) (socket : List Arrival) (accepted : Option Arrival) :
    Reflects prog { s with prog := k r, waiting := none, socket := socket,
                           log := s.log ++ [⟨op, id, r, accepted⟩] } := by
  obtain ⟨rfl, hn, op', k', hp', hop⟩ := hr.busy id hw
  obtain ⟨rfl, rfl⟩ : op = op' ∧ k = k' := by
    rw [hp] at hp'; cases hp'; exact ⟨rfl, rfl⟩
  refine ⟨?_, ?_, fun _ => ?_, fun _ h => nomatch h⟩
  · simpa using (hp ▸ hr.reach).snoc_transaction hop r
  · simp [hr.ids, List.range_succ]
  · simpa using hn

/-- Every event keeps it, timely or not. -/
theorem Reflects.step {prog : Prog α} {s s' : SdoSession α} {e : Event} (hr : Reflects prog s)
    (h : Step node s e s') : Reflects prog s' := by
  cases h with
  | send hp hw hop =>
    exact ⟨hr.reach, hr.ids, (fun h => nomatch h), fun _ h => by
      cases h; exact ⟨hr.idle hw, rfl, _, _, hp, hop⟩⟩
  | sendFail hp hw hop =>
    refine ⟨?_, ?_, fun _ => by simpa using hr.idle hw, fun _ h => by simp [hw] at h⟩
    · simpa using (hp ▸ hr.reach).snoc_transaction hop none
    · simp [hr.ids, List.range_succ, hr.idle hw]
  | internal hp hw hop =>
    exact ⟨by simpa using (hp ▸ hr.reach).snoc_internal hop, hr.ids, hr.idle,
      fun _ h => by simp [hw] at h⟩
  | skip hp hw hs _ => exact ⟨hr.reach, hr.ids, hr.idle, hr.busy⟩
  | accept hp hw hs _ => exact hr.complete hp hw _ _ _
  | abort hp hw hs _ => exact hr.complete hp hw _ _ _
  | timeout hp hw => exact hr.complete hp hw _ s.socket none
  | serve | refuse | lose | spont | noise => exact ⟨hr.reach, hr.ids, hr.idle, hr.busy⟩

theorem Reflects.run {prog : Prog α} {ok : SdoSession α → Event → Prop} {s s' : SdoSession α}
    {evs : List Event} (hr : Reflects prog s) (h : Run node ok s evs s') : Reflects prog s' := by
  induction h with
  | nil => exact hr
  | cons _ hs _ ih => exact ih (hr.step hs)

/-- In every run of the session, whatever the events: the client has completed its requests
    `0, 1, …` once each and in order; its routine has got, for its transactions, exactly the
    answers the log records; and when it has finished, its result and those answers are those
    of a path of the routine on which every other request is answered `none`. -/
theorem session_refines_paths (node : BitVec 8) (prog : Prog α) (d : Drive)
    (ok : SdoSession α → Event → Prop) {evs : List Event} {s : SdoSession α}
    (h : Run node ok (SdoSession.start prog d) evs s) :
    s.log.map Outcome.id = List.range s.log.length ∧
      Reach prog (s.log.map Outcome.exchange) s.prog ∧
      ∀ a, s.prog = .pure a → ∃ t, Prog.Path prog a t ∧
        t.filter (fun e => e.1.isTransaction) = s.log.map Outcome.exchange ∧
        ∀ e ∈ t, e.1.isTransaction = false → e.2 = none :=
  have hr := (Reflects.start prog d).run h
  ⟨hr.ids, hr.reach, hr.reach.path⟩

/-- The run of `late_ack_answers_read`, in which the read takes the write's late
    acknowledgement: `writeThenRead` finishes returning 0, its two requests completed in order,
    and a path of the routine gives the same answers. -/
theorem late_ack_run_is_a_path :
    ∃ s, Run 2 (fun _ _ => True) (SdoSession.start writeThenRead enabledDrive)
        [.send, .timeout, .send, .serve true 0, .poll] s ∧
      s.prog = .pure (some 0) ∧ s.log.map Outcome.id = List.range s.log.length ∧
      ∃ t, Prog.Path writeThenRead (some 0) t ∧
        t.filter (fun e => e.1.isTransaction) = s.log.map Outcome.exchange := by
  have hfin : ((SdoSession.start writeThenRead enabledDrive).stepsWhen 2
      (fun _ _ => true) [.send, .timeout, .send, .serve true 0, .poll]).map SdoSession.prog =
      some (.pure (some 0)) := rfl
  obtain ⟨s, hs, hfin⟩ := Option.map_eq_some'.mp hfin
  have hrun : Run 2 (fun _ _ => True) (SdoSession.start writeThenRead enabledDrive)
      [.send, .timeout, .send, .serve true 0, .poll] s := by
    simpa using run_of_stepsWhen 2 hs
  obtain ⟨hids, -, hpath⟩ := session_refines_paths 2 writeThenRead enabledDrive _ hrun
  obtain ⟨t, hp, hf, -⟩ := hpath _ hfin
  exact ⟨s, hrun, hfin, hids, t, hp, hf⟩

end Steps

end ErobCanopen
