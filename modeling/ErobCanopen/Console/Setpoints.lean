/-
  ErobCanopen.Console.Setpoints
  ─────────────────────────────
  **WHAT `main` LETS THE DRIVE LATCH, OVER EVERY RUN AND EVERY OUTCOME OF EVERY TRANSACTION.**

  A CiA 402 drive in profile position mode moves to a set-point when it latches one: on a
  rising edge of control-word bit 4 it takes its target register `0x607A` as it stands.
  `main` checks a target against `MIN_POSITION`/`MAX_POSITION` before writing it, but the
  register holds whatever it held before `main` started, and a write can be applied without
  its acknowledgement coming back.  Here `main` runs against the drive of `Drive.Cia402`,
  from any state of the drive, with any fate for each transaction.

  Only a move writes a control word with bit 4 set, and only after its own target write was
  acknowledged — hence applied — with nothing in between that changes the register.  So the
  drive latches only targets `main` wrote in that run, in the order it wrote them, each at
  most once, all in range, whatever the drive held before.

  That argument takes each acknowledgement to be the drive's answer to the request it
  acknowledges.  In the session of `Sdo.Session`, where `receive_sdo_response` takes any
  response from the drive's COB-ID, every target `main` sends is still in range, and the drive
  still latches only values its target register has held; but a target write can be
  "acknowledged" by a late response and then lost, and the drive then latches the value its
  register held before `main` started.  In a timely session, which `Sdo.Timely` shows to be a
  run against the synchronous drive, that cannot happen.

  Main results:
    * `MoveRun.latchesWritten` — what one move lets the drive latch, on each of its paths;
    * `pp_main_latches_written` — over every run of `main`;
    * `session_latches_in_range_or_initial` — over every run of the session, the drive
      latches only targets in range or the one it started with; `stale_target_latched` shows
      the latter happen;
    * `timely_session_latches_written` — over every timely session that has finished, the
      drive latches only targets `main` wrote, as against the synchronous drive.
-/
import ErobCanopen.Console.Session
import ErobCanopen.Sdo.Timely

namespace ErobCanopen

/-! ## §1. Latching only written targets. -/

/-- Going from `d` to `d'` through the exchanges `t`, the drive latched only targets `t`
    wrote, in the order written, each at most once, all in range. -/
def LatchesWritten (t : List Exchange) (d d' : Drive) : Prop :=
  ∃ new, d'.latched = d.latched ++ new ∧ new.Sublist (writesTo 0x607A t) ∧ ∀ x ∈ new, InRange x

theorem LatchesWritten.of_latched_eq {t : List Exchange} {d d' : Drive}
    (h : d'.latched = d.latched) : LatchesWritten t d d' :=
  ⟨[], by rw [h, List.append_nil], List.nil_sublist _, fun _ h => nomatch h⟩

theorem LatchesWritten.append {t₁ t₂ : List Exchange} {d d₁ d₂ : Drive}
    (h₁ : LatchesWritten t₁ d d₁) (h₂ : LatchesWritten t₂ d₁ d₂) :
    LatchesWritten (t₁ ++ t₂) d d₂ := by
  obtain ⟨n₁, e₁, s₁, r₁⟩ := h₁
  obtain ⟨n₂, e₂, s₂, r₂⟩ := h₂
  refine ⟨n₁ ++ n₂, by rw [e₂, e₁, List.append_assoc], by rw [writesTo_append]; exact s₁.append s₂,
    fun x hx => ?_⟩
  rcases List.mem_append.mp hx with hx | hx
  · exact r₁ x hx
  · exact r₂ x hx

theorem Follows.latchesWritten_of_canLatch {d d' : Drive} {t : List Exchange}
    (h : Follows d t d') (hl : ∀ e ∈ t, e.1.canLatch = false) : LatchesWritten t d d' :=
  .of_latched_eq (h.latched_eq hl)

/-! ## §2. What one exchange latches. -/

/-- A delivered write latches nothing, or the target the drive holds. -/
theorem Drive.deliver_latched (d : Drive) (i : BitVec 16) (w : BitVec 32) :
    (d.deliver i w).latched = d.latched ∨
      (d.deliver i w).latched = d.latched ++ [d.target_position] := by
  unfold Drive.deliver
  split
  · split
    · exact .inr rfl
    · exact .inl rfl
  · split <;> exact .inl rfl

/-- One exchange latches nothing, or the target the drive held before it. -/
theorem Drive.transact_latched (d : Drive) (f : Fate) (op : Op) :
    (d.transact f op).2.latched = d.latched ∨
      (d.transact f op).2.latched = d.latched ++ [d.target_position] := by
  obtain ⟨-, ht, hl⟩ := Drive.settle_fields f.before d
  cases op with
  | write i s w =>
    simp only [Drive.transact]
    split
    · rw [← ht, ← hl]; exact (d.settle f.before).deliver_latched i w
    · exact .inl hl
  | _ => exact .inl hl

/-- An acknowledged target write set the register and latched nothing. -/
theorem Drive.transact_target_some {d d' : Drive} {f : Fate} {p a : BitVec 32}
    (h : d.transact f (targetWrite p) = (some a, d')) :
    d'.target_position = p ∧ d'.latched = d.latched := by
  rw [Drive.transact_write_some h, Drive.deliver_target]
  exact ⟨rfl, (Drive.settle_fields f.before d).2.2⟩

/-- A read changes neither the register nor the latches. -/
theorem Drive.transact_read_fields {d d' : Drive} {f : Fate} {i : BitVec 16} {s : BitVec 8}
    {r : Answer} (h : d.transact f (.read i s) = (r, d')) :
    d'.target_position = d.target_position ∧ d'.latched = d.latched := by
  rw [(Drive.transact_read h).1]
  exact (Drive.settle_fields f.before d).2

/-! ## §3. One move. -/

/-- The first four exchanges of a move whose target write was acknowledged: the fourth latches
    at most that target. -/
theorem Follows.latchesWritten_armed {d d' : Drive} {p : BitVec 32} {pos : Answer}
    {a cw : BitVec 32} {op : Op} {b : Answer} (hin : InRange p)
    (h : Follows d [(posRead, pos), (targetWrite p, some a), (cwRead, some cw), (op, b)] d') :
    LatchesWritten [(posRead, pos), (targetWrite p, some a), (cwRead, some cw), (op, b)] d d' := by
  obtain ⟨f₁, d₁, h₁, h⟩ := h.cons_inv
  obtain ⟨f₂, d₂, h₂, h⟩ := h.cons_inv
  obtain ⟨f₃, d₃, h₃, h⟩ := h.cons_inv
  obtain ⟨f₄, d₄, h₄, h⟩ := h.cons_inv
  cases h
  have e₁ := Drive.transact_read_fields h₁
  have e₂ := Drive.transact_target_some h₂
  have e₃ := Drive.transact_read_fields h₃
  have hw : writesTo 0x607A [(posRead, pos), (targetWrite p, some a), (cwRead, some cw), (op, b)] =
      p :: writesTo 0x607A [(op, b)] := by
    simp [posRead, targetWrite, cwRead]
  have e₄ := Drive.transact_latched d₃ f₄ op
  rw [h₄] at e₄
  rcases e₄ with e₄ | e₄
  · exact .of_latched_eq (by rw [e₄, e₃.2, e₂.2, e₁.2])
  · refine ⟨[p], by rw [e₄, e₃.1, e₂.1, e₃.2, e₂.2, e₁.2], ?_, fun x hx => ?_⟩
    · rw [hw]; exact List.singleton_sublist.mpr (List.mem_cons_self _ _)
    · rw [List.mem_singleton.mp hx]; exact hin

/-- After the bit-4 write of a move: the misses of the first wait, the status read that ended
    it and the release write latch nothing. -/
theorem release_tail_canLatch {misses : List Exchange} (hm : ∀ e ∈ misses, Missed bit12Set e)
    (sw cw : BitVec 32) (c : Answer) :
    ∀ e ∈ misses ++ [(statusRead, some sw), (cwWrite (releaseWord cw), c)],
      e.1.canLatch = false := by
  simp only [List.mem_append, List.mem_cons, List.not_mem_nil, or_false]
  rintro e (he | rfl | rfl)
  · rw [(hm e he).1]; rfl
  · rfl
  · simp [Op.canLatch, cwWrite, newSetPoint_releaseWord]

/-- On each of its paths, a move lets the drive latch at most its own target, and only when it
    is in range and was written. -/
theorem MoveRun.latchesWritten {p : BitVec 32} {r : Int} {t : List Exchange} (h : MoveRun p r t)
    {d d' : Drive} (hf : Follows d t d') : LatchesWritten t d d' := by
  cases h with
  | out_of_range => cases hf; exact .of_latched_eq rfl
  | target_failed | read_failed =>
    refine hf.latchesWritten_of_canLatch fun e he => ?_
    simp only [List.mem_cons, List.mem_singleton, List.not_mem_nil, or_false] at he
    rcases he with rfl | rfl | rfl <;> rfl
  | set_failed pos a cw hin => exact hf.latchesWritten_armed hin
  | ack_timeout pos a cw b misses hin _ hm =>
    obtain ⟨d₄, h₁, h₂⟩ := hf.append_inv
    exact (h₁.latchesWritten_armed hin).append
      (h₂.latchesWritten_of_canLatch fun e he => by rw [(hm e he).1]; rfl)
  | release_failed pos a cw b sw misses hin _ hm =>
    rw [List.append_assoc] at hf ⊢
    obtain ⟨d₄, h₁, h₂⟩ := hf.append_inv
    exact (h₁.latchesWritten_armed hin).append
      (h₂.latchesWritten_of_canLatch (release_tail_canLatch hm sw cw none))
  | accepted pos a cw b sw c misses rest hin _ hm _ hs =>
    rw [List.append_assoc, List.append_assoc] at hf ⊢
    obtain ⟨d₄, h₁, h₂⟩ := hf.append_inv
    refine (h₁.latchesWritten_armed hin).append (h₂.latchesWritten_of_canLatch fun e he => ?_)
    rw [← List.append_assoc] at he
    rcases List.mem_append.mp he with he | he
    · exact release_tail_canLatch hm sw cw (some c) e he
    · exact hs.canLatch e he

/-! ## §4. Every run of `main`. -/

theorem Op.canLatch_param (q : ProfileParam) (v : BitVec 32) :
    (Op.write q.index 0 v).canLatch = false := by
  cases q <;> rfl

/-- A line lets the drive latch only what its move wrote. -/
theorem CommandRun.latchesWritten {g g' : Globals} {buf : List Char} {t : List Exchange}
    (h : CommandRun g buf g' t) {d d' : Drive} (hf : Follows d t d') : LatchesWritten t d d' := by
  cases h with
  | move _ _ _ _ _ hm => exact hm.latchesWritten hf
  | set q _ _ _ =>
    refine hf.latchesWritten_of_canLatch fun e he => ?_
    rcases List.mem_cons.mp he with rfl | he
    · exact Op.canLatch_param q _
    · rw [List.mem_singleton.mp he]; rfl
  | increase q | decrease q =>
    exact hf.latchesWritten_of_canLatch fun e he => by
      rw [List.mem_singleton.mp he]; exact Op.canLatch_param q _
  | stop =>
    refine hf.latchesWritten_of_canLatch fun e he => ?_
    rcases List.mem_cons.mp he with rfl | he
    · rfl
    · rw [List.mem_singleton.mp he]; rfl
  | show_param =>
    exact hf.latchesWritten_of_canLatch fun e he => by rw [List.mem_singleton.mp he]; rfl
  | empty | show_target | at_minimum | quit | ignored => cases hf; exact .of_latched_eq rfl

/-- `init_pp_mode`'s control words `0x80`, `0x06`, `0x07`, `0x0F` all have bit 4 clear. -/
theorem initOps_canLatch (node : BitVec 8) : ∀ op ∈ initOps node, op.canLatch = false := by
  simp only [initOps, List.mem_cons, List.not_mem_nil, or_false]
  rintro op (rfl | rfl | rfl | rfl | rfl | rfl | rfl | rfl | rfl | rfl | rfl) <;> rfl

/-- On every path of `main`, a drive that follows it latches only targets the path wrote, in
    order, each at most once, all in range. -/
theorem pp_main_path_latchesWritten {node : BitVec 8} {lines : List (List Char)} {g : Globals}
    {t : List Exchange} (hp : Prog.Path (pp_main node lines) g t) :
    ∀ d d', Follows d t d' → LatchesWritten t d d' := by
  refine pp_main_inv (fun _ t => ∀ d d', Follows d t d' → LatchesWritten t d d') node
    ?init ?keep ?step hp
  case init =>
    intro t hops d d' hf
    refine hf.latchesWritten_of_canLatch fun e he => initOps_canLatch node e.1 ?_
    rw [← hops]
    exact List.mem_map_of_mem _ he
  case keep =>
    rintro g t e he hP d d' hf
    obtain ⟨d₁, h₁, h₂⟩ := hf.append_inv
    refine (hP d d₁ h₁).append (h₂.latchesWritten_of_canLatch fun e' he' => ?_)
    rw [List.mem_singleton.mp he']
    rcases he with he | he <;> rw [he] <;> rfl
  case step =>
    rintro g g' buf t t' hP hrun d d' hf
    obtain ⟨d₁, h₁, h₂⟩ := hf.append_inv
    exact (hP d d₁ h₁).append (hrun.latchesWritten h₂)

/-- Over every run of `main` against the drive — every input, every fate of every transaction,
    from any state of the drive — the drive latches only targets `main` wrote in that run, in
    the order it wrote them, each at most once, and all in range. -/
theorem pp_main_latches_written (fates : Nat → Fate) (node : BitVec 8) (lines : List (List Char))
    (d : Drive) (n : Nat) :
    let x := runDrive fates (pp_main node lines) d n
    ∃ new, x.2.2.latched = d.latched ++ new ∧ new.Sublist (writesTo 0x607A x.2.1) ∧
      ∀ v ∈ new, InRange v :=
  pp_main_path_latchesWritten (path_runDrive fates (pp_main node lines) d n) d _
    (follows_runDrive fates (pp_main node lines) d n)

/-! ## §5. In the session. -/

/-- A request that, if it writes the target position, writes a value in range. -/
def SafeTarget (op : Op) : Prop :=
  ∀ sub w, op = .write 0x607A sub w → InRange w

/-- Every request the routine can be about to make, whatever answers it has got, is safe. -/
def SendsSafeTargets {α : Type} (prog : Prog α) : Prop :=
  ∀ t op k, Reach prog t (.call op k) → SafeTarget op

theorem mem_writesTo_of_mem {i : BitVec 16} {s : BitVec 8} {w : BitVec 32} {a : Answer}
    {t : List Exchange} (h : (Op.write i s w, a) ∈ t) : w ∈ writesTo i t :=
  List.mem_filterMap.mpr ⟨_, List.mem_map_of_mem Prod.fst h, by simp⟩

/-- Every target on a path of `main` is in range. -/
theorem pp_main_path_targets {node : BitVec 8} {lines : List (List Char)} {g' : Globals}
    {t : List Exchange} (hp : Prog.Path (pp_main node lines) g' t) :
    ∀ v ∈ writesTo 0x607A t, InRange v := by
  refine pp_main_inv (fun _ t => ∀ v ∈ writesTo 0x607A t, InRange v) node ?init ?keep ?step hp
  case init =>
    intro t hops v hv
    have h0 : (initOps node).filterMap (Op.writeTo 0x607A) = [] := rfl
    simp only [writesTo, hops, h0, List.not_mem_nil] at hv
  case keep =>
    intro g t e he hP v hv
    rw [writesTo_append, writesTo_keep he (by decide), List.append_nil] at hv
    exact hP v hv
  case step =>
    intro g g' buf t t' hP hrun v hv
    rcases List.mem_append.mp ((writesTo_append _ t t').symm ▸ hv) with hv | hv
    · exact hP v hv
    · rcases hrun.writesTo_target with h1 | ⟨tail, -, hin, h1⟩
      · rw [h1] at hv; exact absurd hv (List.not_mem_nil v)
      · rw [h1, List.mem_singleton] at hv; exact hv ▸ hin

/-- Whatever answers `main` has got, the request it is about to make is safe: completed with
    any answers, it lies on a path of `main`. -/
theorem pp_main_sends_safe_targets (node : BitVec 8) (lines : List (List Char)) :
    SendsSafeTargets (pp_main node lines) := by
  rintro t op k hr sub w rfl
  have hp := Prog.path_run (fun _ _ => none) (.call (.write 0x607A sub w) k) []
  rw [Prog.run_call] at hp
  obtain ⟨t'', hp'', hs⟩ := hr.extend hp
  exact pp_main_path_targets hp'' w (mem_writesTo_of_mem (hs.subset (List.mem_cons_self _ _)))

/-- The drive, started as `d₀`, holds a target in range or its first one, and has latched
    since only values in range or its first target. -/
def DriveGuard (d₀ d : Drive) : Prop :=
  (d.target_position = d₀.target_position ∨ InRange d.target_position) ∧
    ∃ new, d.latched = d₀.latched ++ new ∧ ∀ x ∈ new, x = d₀.target_position ∨ InRange x

theorem DriveGuard.deliver {d₀ d : Drive} (hg : DriveGuard d₀ d) {i : BitVec 16} {w : BitVec 32}
    (hw : i = 0x607A → InRange w) : DriveGuard d₀ (d.deliver i w) := by
  obtain ⟨ht, new, hl, hn⟩ := hg
  unfold Drive.deliver
  split
  · split
    · refine ⟨ht, new ++ [d.target_position], by rw [hl, List.append_assoc], fun x hx => ?_⟩
      rcases List.mem_append.mp hx with hx | hx
      · exact hn x hx
      · rw [List.mem_singleton.mp hx]; exact ht
    · exact ⟨ht, new, hl, hn⟩
  · split
    · exact ⟨.inr (hw ‹_›), new, hl, hn⟩
    · exact ⟨ht, new, hl, hn⟩

theorem DriveGuard.spont {d₀ d : Drive} (hg : DriveGuard d₀ d) (sp : Spont) :
    DriveGuard d₀ (d.spont sp) := by
  obtain ⟨_, ht, hl⟩ := d.spont_fields sp
  rw [DriveGuard, ht, hl]
  exact hg

/-- The latch invariant of a session started with the drive `d₀`: the drive's guard, and only
    safe requests with the drive. -/
structure LatchGuard {α : Type} (d₀ : Drive) (s : SdoSession α) : Prop where
  drive : DriveGuard d₀ s.drive
  inbox : ∀ r ∈ s.inbox, SafeTarget r.2

section Latching

variable {node : BitVec 8} {α : Type} {d₀ : Drive}

theorem LatchGuard.serve_drive {s : SdoSession α} (hg : LatchGuard d₀ s) {r : Nat × Op}
    (hr : r ∈ s.inbox) {other : BitVec 32} {f : CanFrame} {d : Drive}
    (h : s.drive.serve node other r.2 = some (f, d)) : DriveGuard d₀ d := by
  obtain ⟨id, op⟩ := r
  cases op with
  | read i sub => cases h; exact hg.drive
  | write i sub w =>
    cases h
    exact hg.drive.deliver fun hi => hg.inbox _ hr sub w (by rw [hi])
  | _ => cases h

/-- Every event keeps the latch invariant, provided the request a `send` puts with the drive
    is safe. -/
theorem LatchGuard.step {s s' : SdoSession α} {e : Event} (hg : LatchGuard d₀ s)
    (hsend : ∀ op k, s.prog = .call op k → SafeTarget op) (h : Step node s e s') :
    LatchGuard d₀ s' := by
  cases h with
  | send hp =>
    refine ⟨hg.drive, fun r hr => ?_⟩
    rcases List.mem_append.mp hr with hr | hr
    · exact hg.inbox r hr
    · rw [List.mem_singleton.mp hr]; exact hsend _ _ hp
  | serve hi hfd =>
    exact ⟨hg.serve_drive (hi ▸ List.mem_cons_self _ _) hfd,
      fun r hr => hg.inbox r (hi ▸ List.mem_cons_of_mem _ hr)⟩
  | refuse hi | lose hi => exact ⟨hg.drive, fun r hr => hg.inbox r (hi ▸ List.mem_cons_of_mem _ hr)⟩
  | spont sp => exact ⟨hg.drive.spont sp, hg.inbox⟩
  | sendFail | internal | skip | accept | abort | timeout | noise => exact ⟨hg.drive, hg.inbox⟩

theorem LatchGuard.run {prog : Prog α} (hsafe : SendsSafeTargets prog)
    {ok : SdoSession α → Event → Prop} {s s' : SdoSession α} {evs : List Event}
    (hr : Reflects prog s) (hg : LatchGuard d₀ s) (h : Run node ok s evs s') :
    LatchGuard d₀ s' := by
  induction h with
  | nil => exact hg
  | cons _ hs _ ih =>
    exact ih (hr.step hs) (hg.step (fun op k hp => hsafe _ op k (hp ▸ hr.reach)) hs)

end Latching

/-- Over every run of the session of `main` — every interleaving, timely or not, late
    responses taken by the wrong request included — the drive started as `d` latches only
    targets in range or the target it started with. -/
theorem session_latches_in_range_or_initial (node motor : BitVec 8) (lines : List (List Char))
    (d : Drive) (ok : SdoSession Globals → Event → Prop) {evs : List Event}
    {s : SdoSession Globals} (h : Run node ok (SdoSession.start (pp_main motor lines) d) evs s) :
    ∃ new, s.drive.latched = d.latched ++ new ∧ ∀ x ∈ new, x = d.target_position ∨ InRange x :=
  (LatchGuard.run (pp_main_sends_safe_targets motor lines) (Reflects.start _ d)
    ⟨⟨.inl rfl, [], by rw [SdoSession.start, List.append_nil], fun _ h => nomatch h⟩,
      fun _ h => nomatch h⟩ h).drive.2

/-- A drive enabled with bit 4 clear, whose target register still holds `0x7FFFFFFF`, beyond
    `MAX_POSITION`. -/
def staleDrive : Drive := ⟨0x0F, 0x7FFFFFFF, false, false, []⟩

/-- `main` with the one line `p 1000`: `init_pp_mode` and the banner read, every request
    answered; then the move's position read times out, its late response is taken by the target
    write, the target write is lost, and the move goes on to the control-word read and the
    bit-4 write. -/
def staleAckEvents : List Event :=
  [.internal, .internal, .internal] ++ (List.replicate 9 [.send, .serve true 0, .poll]).flatten ++
    [.send, .timeout, .send, .serve true 0, .poll, .lose, .send, .serve true 0, .poll, .send,
      .serve true 0]

set_option maxRecDepth 4000 in
/-- On that run the drive latches the stale `0x7FFFFFFF`, not the target 1000 `main` sent. -/
theorem stale_target_latched :
    ∃ s, Run 2 (fun _ _ => True) (SdoSession.start (pp_main 2 ["p 1000".toList]) staleDrive)
        staleAckEvents s ∧
      s.drive.latched = [0x7FFFFFFF] ∧ ¬ InRange 0x7FFFFFFF ∧
      ∃ new, s.drive.latched = staleDrive.latched ++ new ∧
        ∀ x ∈ new, x = staleDrive.target_position ∨ InRange x := by
  have hl : ((SdoSession.start (pp_main 2 ["p 1000".toList]) staleDrive).stepsWhen 2
      (fun _ _ => true) staleAckEvents).map (fun s => s.drive.latched) = some [0x7FFFFFFF] :=
    rfl
  obtain ⟨s, hs, hl⟩ := Option.map_eq_some'.mp hl
  have hrun : Run 2 (fun _ _ => True) (SdoSession.start (pp_main 2 ["p 1000".toList]) staleDrive)
      staleAckEvents s := by
    simpa using run_of_stepsWhen 2 hs
  exact ⟨s, hrun, hl, by decide,
    session_latches_in_range_or_initial 2 2 ["p 1000".toList] staleDrive _ hrun⟩

/-! ## §6. In a timely session. -/

/-- Only transactions write. -/
theorem writesTo_filter_transaction (i : BitVec 16) :
    ∀ t : List Exchange, writesTo i (t.filter fun e => e.1.isTransaction) = writesTo i t
  | [] => rfl
  | (op, r) :: t => by
    rw [List.filter_cons]
    split
    · simp only [writesTo_cons, writesTo_filter_transaction i t]
    · rename_i hop
      cases op <;> first | exact absurd rfl hop | simp [writesTo_filter_transaction i t]

/-- Over every timely session of `main` that has finished — the drive taking requests the client
    gave up on late, on its own steps at any time — the drive started as `d` latched only
    targets `main` wrote, in the order written, each at most once, all in range: never the
    value its register held before, which a late response can make it latch in an untimely
    session. -/
theorem timely_session_latches_written (node motor : BitVec 8) (lines : List (List Char))
    (d : Drive) {evs : List Event} {s : SdoSession Globals} {g : Globals}
    (h : Run node (fun s e => timely s e = true) (SdoSession.start (pp_main motor lines) d) evs s)
    (hfin : s.prog = .pure g) :
    ∃ new, s.drive.latched = d.latched ++ new ∧
      new.Sublist (writesTo 0x607A (s.log.map Outcome.exchange)) ∧ ∀ x ∈ new, InRange x := by
  have hk := (Tracks.start _ d).run (Clean.start _ d) h
  obtain ⟨d₁, steps, hf, hd⟩ := hk.follows (hk.waiting_of_pure hfin)
  obtain ⟨t, hp, ht, hn⟩ := ((Reflects.start _ d).run h).reach.path g hfin
  obtain ⟨new, hl, hs, hr⟩ := pp_main_path_latchesWritten hp d d₁ (Follows.of_filter (ht ▸ hf) hn)
  refine ⟨new, by rw [hd, (Drive.settle_fields steps d₁).2.2, hl], ?_, hr⟩
  rw [← ht, writesTo_filter_transaction]
  exact hs

/-- `main` with the one line `p 1000` on `staleDrive`, every request answered at once, bit 12
    rising after the bit-4 write and falling after the release. -/
def promptEvents : List Event :=
  [.internal, .internal, .internal] ++ (List.replicate 13 [.send, .serve true 0, .poll]).flatten ++
    [.send, .spont .rise, .serve true 0, .poll, .send, .serve true 0, .poll, .send, .spont .fall,
      .serve true 0, .poll, .send, .serve true 0, .poll, .internal, .send, .serve true 0, .poll]

set_option maxRecDepth 4000 in
/-- On that timely run the drive latches 1000, not the stale `0x7FFFFFFF` its register held. -/
theorem prompt_session_latches_target :
    ∃ s, Run 2 (fun s e => timely s e = true)
        (SdoSession.start (pp_main 2 ["p 1000".toList]) staleDrive) promptEvents s ∧
      (∃ g, s.prog = .pure g) ∧ s.drive.latched = [1000] ∧
      ∃ new, s.drive.latched = staleDrive.latched ++ new ∧
        new.Sublist (writesTo 0x607A (s.log.map Outcome.exchange)) ∧ ∀ x ∈ new, InRange x := by
  have hv : ((SdoSession.start (pp_main 2 ["p 1000".toList]) staleDrive).stepsWhen 2 timely
      promptEvents).map (fun s => ((match s.prog with | .pure _ => true | .call _ _ => false),
        s.drive.latched)) = some (true, [1000]) := rfl
  obtain ⟨s, hs, hv⟩ := Option.map_eq_some'.mp hv
  obtain ⟨hp, hl⟩ := Prod.mk.inj hv
  have hrun := run_of_stepsWhen 2 hs
  obtain ⟨g, hg⟩ : ∃ g, s.prog = .pure g := by
    revert hp
    cases s.prog with
    | pure g => exact fun _ => ⟨g, rfl⟩
    | call _ _ => exact fun h => nomatch h
  exact ⟨s, hrun, ⟨g, hg⟩, hl,
    timely_session_latches_written 2 2 ["p 1000".toList] staleDrive hrun hg⟩

end ErobCanopen
