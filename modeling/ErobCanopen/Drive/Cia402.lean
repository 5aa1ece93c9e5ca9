/-
  ErobCanopen.Drive.Cia402
  ────────────────────────
  **THE DRIVE A MOVE TALKS TO: CiA 402 SINGLE SET-POINT, UNDER EVERY OUTCOME OF EVERY
  TRANSACTION.**

  The drive is modelled as far as a move sees it: its control word (the last value delivered
  to `0x6040`), its target register (`0x607A`), status bit 12 (set-point acknowledge), and
  whether a latched set-point still waits for bit 12 to rise.  A rising edge of control-word
  bit 4 delivered while bit 12 is clear latches the current target; bit 12 rises for it some
  time later, and falls some time after bit 4 is cleared.  A ghost list records every
  target latched.

  `runDrive fates` runs a routine against the drive, the `n`-th transaction meeting
  `fates n`: the steps the drive takes on its own first, whether the request reaches the
  drive, whether the response reaches the client in time, and the value of whatever the
  model leaves open.  Quantifying over `fates` is quantifying over every outcome of every
  transaction — success, abort, timeout, a write applied whose acknowledgement was lost —
  with the drive's own timing chosen freely.  Each response is taken by its own request;
  `Sdo.Session` shows what happens when it is not.

  Main results:
    * `path_runDrive`, `follows_runDrive` — a run is a path of the routine, and the drive
      follows its exchanges;
    * `move_latches_own_target` — a move that returns 0, having started with bit 4 and bit 12
      clear and no set-point pending, latched exactly its own target;
    * `move_keeps_control_bits` — every control word a move writes differs from the drive's
      in bit 4 only;
    * `reliable_move_outcome` — on a bus that loses nothing, a move from an enabled drive
      waiting for a set-point always latches its target, and returns 0 exactly when bit 12 rises before one
      of the 50 status reads of step 4.
-/
import ErobCanopen.Drive.Handshake

namespace ErobCanopen

/-! ## §1. The drive. -/

/-- The part of a CiA 402 drive in profile position mode (single set-point) that a move
    reads and writes. -/
structure Drive where
  /-- `0x6040`: the last control word delivered. -/
  control_word : BitVec 32
  /-- `0x607A`: the last target position delivered. -/
  target_position : BitVec 32
  /-- Status word bit 12, set-point acknowledge. -/
  ack : Bool
  /-- A set-point is latched and bit 12 has not yet risen for it. -/
  pending : Bool
  /-- Every set-point latched so far, oldest first. -/
  latched : List (BitVec 32)
  deriving DecidableEq, Repr

/-- Control-word bit 4, "new set-point". -/
def newSetPoint (w : BitVec 32) : Bool := w &&& 0x10 != 0

/-- The control word of a drive in Operation Enabled that waits for a set-point: Enable
    Operation (bits 0–3 set, Fault Reset bit 7 clear), as `init_pp_mode`'s `0x0F` commands,
    with bit 4 clear.  The drive model keeps no power state and takes a set-point whatever the
    enable bits, so what holds only of an enabled drive is stated under this. -/
def enabledIdle (w : BitVec 32) : Bool := w &&& 0x9F == 0x0F

theorem newSetPoint_of_enabledIdle {w : BitVec 32} (h : enabledIdle w = true) :
    newSetPoint w = false := by
  have hw : w &&& 0x9F = 0x0F := by simpa [enabledIdle] using h
  have h4 : w &&& 0x10 = 0 := by
    rw [show (0x10 : BitVec 32) = 0x9F &&& 0x10 from rfl, ← BitVec.and_assoc, hw]
    rfl
  rw [newSetPoint, h4]
  rfl

/-- What the drive does on its own between requests. -/
inductive Spont where
  /-- Bit 12 rises for the pending set-point. -/
  | rise
  /-- Bit 12 falls, bit 4 being clear. -/
  | fall
  deriving DecidableEq, Repr

namespace Drive

/-- A write the drive applies: a control word whose bit 4 rises while bit 12 is clear
    latches the target; a target write sets the register; other objects are not modelled. -/
def deliver (d : Drive) (index : BitVec 16) (data : BitVec 32) : Drive :=
  if index = 0x6040 then
    if !newSetPoint d.control_word && newSetPoint data && !d.ack then
      { d with control_word := data, pending := true,
               latched := d.latched ++ [d.target_position] }
    else { d with control_word := data }
  else if index = 0x607A then { d with target_position := data }
  else d

/-- One step the drive takes on its own, when it is possible. -/
def spont (d : Drive) : Spont → Drive
  | .rise => if d.pending then { d with ack := true, pending := false } else d
  | .fall => if !newSetPoint d.control_word && d.ack then { d with ack := false } else d

/-- Steps the drive takes on its own, in order. -/
def settle (d : Drive) (steps : List Spont) : Drive := steps.foldl spont d

/-- The value a read of `index` reports: the control word, the status word with the drive's
    bit 12 (its other bits `other`), the target, or `other` for objects not modelled. -/
def value (d : Drive) (index : BitVec 16) (other : BitVec 32) : BitVec 32 :=
  if index = 0x6040 then d.control_word
  else if index = 0x6041 then (other &&& ~~~0x1000) ||| (if d.ack then 0x1000 else 0)
  else if index = 0x607A then d.target_position
  else other

end Drive

/-- The outcome of one transaction. -/
structure Fate where
  /-- The steps the drive takes on its own before the request reaches it. -/
  before : List Spont
  /-- The request reaches the drive, which applies it. -/
  delivered : Bool
  /-- The response reaches the client before its timeout. -/
  answered : Bool
  /-- What a read reports beyond the model (other status bits, unmodelled objects). -/
  other : BitVec 32

/-- One exchange with the drive: its answer and the drive after it.  NMT commands and
    printed lines do not reach the drive model. -/
def Drive.transact (d : Drive) (f : Fate) (op : Op) : Answer × Drive :=
  let d := d.settle f.before
  match op with
  | .read index _ => (if f.delivered && f.answered then some (d.value index f.other) else none, d)
  | .write index _ data =>
    (if f.delivered && f.answered then some 0 else none,
      if f.delivered then d.deliver index data else d)
  | _ => (none, d)

/-- Run a routine against the drive, the `n`-th transaction meeting `fates n`: its result,
    its exchanges, and the drive after it. -/
def runDrive (fates : Nat → Fate) {α : Type} :
    Prog α → Drive → Nat → α × List Exchange × Drive
  | .pure a, d, _ => (a, [], d)
  | .call op k, d, n =>
    let r := d.transact (fates n) op
    let rest := runDrive fates (k r.1) r.2 (n + 1)
    (rest.1, (op, r.1) :: rest.2.1, rest.2.2)

/-- The drive can answer the exchanges `t` going from `d` to `d'`. -/
inductive Follows : Drive → List Exchange → Drive → Prop where
  | nil (d : Drive) : Follows d [] d
  | cons {d d' d'' : Drive} {op : Op} {r : Answer} {t : List Exchange} (f : Fate) :
      d.transact f op = (r, d') → Follows d' t d'' → Follows d ((op, r) :: t) d''

/-! ## §2. Runs against the drive. -/

theorem path_runDrive (fates : Nat → Fate) {α : Type} (x : Prog α) (d : Drive) (n : Nat) :
    Prog.Path x (runDrive fates x d n).1 (runDrive fates x d n).2.1 := by
  induction x generalizing d n with
  | pure a => exact .pure a
  | call op k ih => exact .call _ (ih _ _ _)

theorem follows_runDrive (fates : Nat → Fate) {α : Type} (x : Prog α) (d : Drive) (n : Nat) :
    Follows d (runDrive fates x d n).2.1 (runDrive fates x d n).2.2 := by
  induction x generalizing d n with
  | pure a => exact .nil d
  | call op k ih => exact .cons (fates n) rfl (ih _ _ _)

/-- The run of a sequence: the second part starts from the drive the first left, at the
    transaction after the first part's last. -/
theorem runDrive_bind (fates : Nat → Fate) {α β : Type} (x : Prog α) (f : α → Prog β) :
    ∀ (d : Drive) (n : Nat), runDrive fates (x >>= f) d n =
      let r := runDrive fates x d n
      let r' := runDrive fates (f r.1) r.2.2 (n + r.2.1.length)
      (r'.1, r.2.1 ++ r'.2.1, r'.2.2) := by
  induction x with
  | pure a => intro d n; rfl
  | call op k ih =>
    intro d n
    have ih' : ∀ a d n, runDrive fates ((k a).bind f) d n = _ := ih
    simp only [Prog.call_bind, runDrive, ih', List.length_cons, List.cons_append, Nat.add_assoc,
      Nat.add_comm 1]

theorem Follows.cons_inv {d d'' : Drive} {e : Exchange} {t : List Exchange}
    (h : Follows d (e :: t) d'') : ∃ f d', d.transact f e.1 = (e.2, d') ∧ Follows d' t d'' := by
  cases h with
  | cons f h1 h2 => exact ⟨f, _, h1, h2⟩

theorem Follows.append_inv {d d'' : Drive} :
    ∀ {t₁ t₂ : List Exchange}, Follows d (t₁ ++ t₂) d'' →
      ∃ d', Follows d t₁ d' ∧ Follows d' t₂ d''
  | [], _, h => ⟨d, .nil d, h⟩
  | e :: t₁, _, h => by
    obtain ⟨f, d₁, h₁, h⟩ := Follows.cons_inv h
    obtain ⟨d', h₂, h₃⟩ := Follows.append_inv h
    exact ⟨d', .cons f h₁ h₂, h₃⟩

/-! ## §3. What one exchange does. -/

theorem Drive.spont_fields (d : Drive) (s : Spont) :
    (d.spont s).control_word = d.control_word ∧
      (d.spont s).target_position = d.target_position ∧ (d.spont s).latched = d.latched := by
  cases s <;> simp only [Drive.spont] <;> split <;> exact ⟨rfl, rfl, rfl⟩

/-- The drive's own steps move neither its registers nor its latches. -/
theorem Drive.settle_fields (steps : List Spont) : ∀ d : Drive,
    (d.settle steps).control_word = d.control_word ∧
      (d.settle steps).target_position = d.target_position ∧
      (d.settle steps).latched = d.latched := by
  induction steps with
  | nil => intro d; exact ⟨rfl, rfl, rfl⟩
  | cons s steps ih =>
    intro d
    obtain ⟨h1, h2, h3⟩ := ih (d.spont s)
    obtain ⟨g1, g2, g3⟩ := d.spont_fields s
    exact ⟨h1.trans g1, h2.trans g2, h3.trans g3⟩

/-- A drive with bit 12 clear and no set-point pending takes no step on its own. -/
theorem Drive.settle_quiet (d : Drive) (h12 : d.ack = false) (hpend : d.pending = false)
    (steps : List Spont) : d.settle steps = d := by
  induction steps with
  | nil => rfl
  | cons s steps ih =>
    have : d.spont s = d := by cases s <;> simp [Drive.spont, h12, hpend]
    rw [Drive.settle, List.foldl_cons, this]
    exact ih

/-- A drive holding bit 4 with nothing pending takes no step on its own either. -/
theorem Drive.settle_held (d : Drive) (h4 : newSetPoint d.control_word = true)
    (hpend : d.pending = false) (steps : List Spont) : d.settle steps = d := by
  induction steps with
  | nil => rfl
  | cons s steps ih =>
    have : d.spont s = d := by cases s <;> simp [Drive.spont, h4, hpend]
    rw [Drive.settle, List.foldl_cons, this]
    exact ih

/-- A drive holding bit 4 for a pending set-point: bit 12 rises if one of its own steps is a
    rise, and then nothing else changes. -/
theorem Drive.settle_armed (steps : List Spont) : ∀ d : Drive,
    newSetPoint d.control_word = true → d.pending = true → d.ack = false →
    d.settle steps =
      if Spont.rise ∈ steps then { d with ack := true, pending := false } else d := by
  induction steps with
  | nil => intro d _ _ _; rfl
  | cons s steps ih =>
    intro d h4 hpend h12
    cases s with
    | rise =>
      rw [Drive.settle, List.foldl_cons, ← Drive.settle]
      simp only [Drive.spont, hpend, if_true, List.mem_cons_self]
      exact Drive.settle_held { d with ack := true, pending := false } h4 rfl steps
    | fall =>
      have : d.spont .fall = d := by simp [Drive.spont, h4]
      rw [Drive.settle, List.foldl_cons, this, ← Drive.settle, ih d h4 hpend h12]
      simp

theorem Drive.transact_read {d d' : Drive} {f : Fate} {i : BitVec 16} {s : BitVec 8}
    {r : Answer} (h : d.transact f (.read i s) = (r, d')) :
    d' = d.settle f.before ∧ ∀ v, r = some v → v = d'.value i f.other := by
  simp only [Drive.transact, Prod.mk.injEq] at h
  obtain ⟨rfl, rfl⟩ := h
  refine ⟨rfl, fun v hv => ?_⟩
  split at hv
  · exact (Option.some_inj.mp hv).symm
  · exact absurd hv (by simp)

/-- An acknowledged write was applied. -/
theorem Drive.transact_write_some {d d' : Drive} {f : Fate} {i : BitVec 16} {s : BitVec 8}
    {w a : BitVec 32} (h : d.transact f (.write i s w) = (some a, d')) :
    d' = (d.settle f.before).deliver i w := by
  simp only [Drive.transact, Prod.mk.injEq] at h
  obtain ⟨h1, rfl⟩ := h
  split at h1
  · rename_i hf
    simp only [Bool.and_eq_true] at hf
    simp [hf.1]
  · exact absurd h1 (by simp)

/-- A write is applied or not. -/
theorem Drive.transact_write {d d' : Drive} {f : Fate} {i : BitVec 16} {s : BitVec 8}
    {w : BitVec 32} {r : Answer} (h : d.transact f (.write i s w) = (r, d')) :
    d' = d.settle f.before ∨ d' = (d.settle f.before).deliver i w := by
  simp only [Drive.transact, Prod.mk.injEq] at h
  obtain ⟨-, rfl⟩ := h
  split
  · exact .inr rfl
  · exact .inl rfl

/-- A request that can latch a set-point: a control-word write with bit 4 set. -/
def Op.canLatch : Op → Bool
  | .write i _ w => i == 0x6040 && newSetPoint w
  | _ => false

theorem Drive.latched_deliver {d : Drive} {i : BitVec 16} {w : BitVec 32}
    (h : (i == 0x6040 && newSetPoint w) = false) : (d.deliver i w).latched = d.latched := by
  unfold Drive.deliver
  split
  · rename_i hi
    subst hi
    simp only [beq_self_eq_true, Bool.true_and] at h
    simp [h]
  · split <;> rfl

theorem Drive.latched_transact (d : Drive) (f : Fate) {op : Op} (h : op.canLatch = false) :
    (d.transact f op).2.latched = d.latched := by
  have hs := (Drive.settle_fields f.before d).2.2
  cases op with
  | write i s w =>
    simp only [Drive.transact]
    split
    · rw [Drive.latched_deliver h, hs]
    · exact hs
  | _ => exact hs

/-- Exchanges that cannot latch leave the latches as they were. -/
theorem Follows.latched_eq {d d' : Drive} {t : List Exchange} (h : Follows d t d')
    (hl : ∀ e ∈ t, e.1.canLatch = false) : d'.latched = d.latched := by
  induction h with
  | nil => rfl
  | @cons d₀ d₁ _ op r _ f h1 _ ih =>
    have h := Drive.latched_transact d₀ f (hl _ (List.mem_cons_self _ _))
    rw [h1] at h
    rw [ih fun e he => hl e (List.mem_cons_of_mem _ he), ← h]

@[simp] theorem Drive.value_control_word (d : Drive) (other : BitVec 32) :
    d.value 0x6040 other = d.control_word := rfl

theorem Drive.deliver_target (d : Drive) (w : BitVec 32) :
    d.deliver 0x607A w = { d with target_position := w } := by
  simp only [Drive.deliver]
  rfl

/-- A rising edge of bit 4 while bit 12 is clear latches the target. -/
theorem Drive.deliver_edge (d : Drive) {w : BitVec 32} (h4 : newSetPoint d.control_word = false)
    (hw : newSetPoint w = true) (h12 : d.ack = false) :
    d.deliver 0x6040 w = { d with control_word := w, pending := true,
                                  latched := d.latched ++ [d.target_position] } := by
  simp [Drive.deliver, h4, hw, h12]

theorem newSetPoint_or_bit4 (cw : BitVec 32) : newSetPoint (cw ||| 0x10) = true := by
  rw [newSetPoint, or_bit4_and_bit4]; decide

theorem newSetPoint_releaseWord (cw : BitVec 32) : newSetPoint (releaseWord cw) = false := by
  rw [newSetPoint, releaseWord_and_bit4]; decide

/-- A status read reports the drive's bit 12, whatever the other bits. -/
theorem bit12Set_value (d : Drive) (other : BitVec 32) :
    bit12Set (d.value 0x6041 other) = d.ack := by
  have hm : ∀ y : BitVec 32, ((other &&& ~~~0x1000) ||| y) &&& 0x1000 = y &&& 0x1000 := by
    intro y
    ext i
    simp only [BitVec.getLsbD_and, BitVec.getLsbD_or, BitVec.getLsbD_not]
    cases (0x1000 : BitVec 32).getLsbD i <;> simp
  rw [Drive.value, if_neg (by decide), if_pos rfl, bit12Set, hm]
  cases d.ack <;> decide

/-! ## §4. A move against the drive. -/

/-- The control-word read of a move reports the control word the drive held when the move
    began: the exchanges before it write only the target. -/
theorem Follows.read_control_word {d d' : Drive} {p : BitVec 32} {pos : Answer}
    {a cw : BitVec 32} {t : List Exchange}
    (h : Follows d ((posRead, pos) :: (targetWrite p, some a) :: (cwRead, some cw) :: t) d') :
    cw = d.control_word := by
  obtain ⟨f₁, d₁, h₁, h⟩ := h.cons_inv
  obtain ⟨f₂, d₂, h₂, h⟩ := h.cons_inv
  obtain ⟨f₃, d₃, h₃, -⟩ := h.cons_inv
  obtain ⟨rfl, -⟩ := Drive.transact_read h₁
  have e₂ := Drive.transact_write_some h₂
  obtain ⟨rfl, hv⟩ := Drive.transact_read h₃
  rw [hv cw rfl, Drive.value_control_word, (Drive.settle_fields _ _).1, e₂,
    Drive.deliver_target, (Drive.settle_fields _ _).1, (Drive.settle_fields _ _).1]

/-- The first four exchanges of a move that got through step 3, from a drive with bit 4
    and bit 12 clear and nothing pending: the bit-4 write latches the move's own target. -/
theorem Follows.armed_latch {d d' : Drive} {p : BitVec 32} {pos : Answer} {a cw b : BitVec 32}
    (h : Follows d (armed p pos a cw b) d') (h4 : newSetPoint d.control_word = false)
    (h12 : d.ack = false) (hpend : d.pending = false) : d'.latched = d.latched ++ [p] := by
  have hcw := Follows.read_control_word h
  obtain ⟨f₁, d₁, h₁, h⟩ := h.cons_inv
  obtain ⟨f₂, d₂, h₂, h⟩ := h.cons_inv
  obtain ⟨f₃, d₃, h₃, h⟩ := h.cons_inv
  obtain ⟨f₄, d₄, h₄, h⟩ := h.cons_inv
  cases h
  obtain rfl : d = d₁ :=
    ((Drive.transact_read h₁).1.trans (Drive.settle_quiet d h12 hpend _)).symm
  obtain rfl : { d with target_position := p } = d₂ := by
    rw [Drive.transact_write_some h₂, Drive.settle_quiet d h12 hpend, Drive.deliver_target]
  obtain rfl : { d with target_position := p } = d₃ := ((Drive.transact_read h₃).1.trans
    (Drive.settle_quiet { d with target_position := p } h12 hpend _)).symm
  rw [Drive.transact_write_some h₄, Drive.settle_quiet { d with target_position := p } h12 hpend,
    hcw, Drive.deliver_edge { d with target_position := p } h4 (newSetPoint_or_bit4 _) h12]

/-- What a move returning 0 consists of. -/
theorem MoveRun.accepted_inv {p : BitVec 32} {t : List Exchange} (h : MoveRun p 0 t) :
    ∃ pos a cw b sw c misses rest, t = armed p pos a cw b ++ (misses ++
        [(statusRead, some sw), (cwWrite (releaseWord cw), some c)] ++ rest) ∧
      (∀ e ∈ misses, Missed bit12Set e) ∧ Settle pos rest := by
  generalize hr : (0 : Int) = r at h
  cases h with
  | accepted pos a cw b sw c misses rest _ _ hm _ hs =>
    exact ⟨pos, a, cw, b, sw, c, misses, rest, by simp, hm, hs⟩
  | _ => exact absurd hr (by decide)

theorem Settle.canLatch {cur : Answer} {t : List Exchange} (h : Settle cur t) :
    ∀ e ∈ t, e.1.canLatch = false := by
  cases h with
  | unread w _ _ hw =>
    simp only [List.mem_append, List.mem_cons, List.not_mem_nil, or_false]
    rintro e (he | rfl | rfl)
    · rw [hw e he]; rfl
    all_goals rfl
  | reread w _ _ _ _ hw =>
    simp only [List.mem_append, List.mem_cons, List.not_mem_nil, or_false]
    rintro e (he | rfl | rfl | rfl)
    · rw [hw e he]; rfl
    all_goals rfl

theorem move_latches_own_target (fates : Nat → Fate) (p : BitVec 32) (d : Drive) (n : Nat)
    (h4 : newSetPoint d.control_word = false) (h12 : d.ack = false) (hpend : d.pending = false)
    (h0 : (runDrive fates (execute_position_move p) d n).1 = 0) :
    (runDrive fates (execute_position_move p) d n).2.2.latched = d.latched ++ [p] := by
  have hm := execute_position_move_path (path_runDrive fates (execute_position_move p) d n)
  have hf := follows_runDrive fates (execute_position_move p) d n
  rw [h0] at hm
  generalize (runDrive fates (execute_position_move p) d n).2.1 = t at hm hf
  generalize (runDrive fates (execute_position_move p) d n).2.2 = d' at hf ⊢
  obtain ⟨pos, a, cw, b, sw, c, misses, rest, rfl, hms, hs⟩ := hm.accepted_inv
  obtain ⟨d₄, h₁, h₂⟩ := hf.append_inv
  have hl : ∀ e ∈ misses ++ [(statusRead, some sw), (cwWrite (releaseWord cw), some c)] ++ rest,
      e.1.canLatch = false := by
    simp only [List.mem_append, List.mem_cons, List.not_mem_nil, or_false]
    rintro e ((he | rfl | rfl) | he)
    · rw [(hms e he).1]; rfl
    · rfl
    · simp [Op.canLatch, cwWrite, newSetPoint_releaseWord]
    · exact hs.canLatch e he
  rw [h₂.latched_eq hl, h₁.armed_latch h4 h12 hpend]

/-- The drive of the examples: Operation Enabled (`0x0F`), bit 12 clear, nothing latched. -/
def enabledDrive : Drive := ⟨0x0F, 0, false, false, []⟩

/-- Every transaction succeeds at once; bit 12 rises before the fifth (the first status read
    of a move) and falls before the seventh. -/
def promptFates (n : Nat) : Fate :=
  ⟨if n = 4 then [.rise] else if n = 6 then [.fall] else [], true, true, 0⟩

theorem prompt_move_latches_target :
    newSetPoint enabledDrive.control_word = false ∧ enabledDrive.ack = false ∧
      enabledDrive.pending = false ∧
      (runDrive promptFates (execute_position_move 1000) enabledDrive 0).1 = 0 ∧
      (runDrive promptFates (execute_position_move 1000) enabledDrive 0).2.2.latched =
        enabledDrive.latched ++ [1000] :=
  have h0 : (runDrive promptFates (execute_position_move 1000) enabledDrive 0).1 = 0 := by decide
  ⟨by decide, rfl, rfl, h0,
    move_latches_own_target promptFates 1000 enabledDrive 0 (by decide) rfl rfl h0⟩

/-- The first move's bit-4 write is applied and bit 12 rises, but all 50 status reads time
    out, so it returns −1 with bit 4 still set.  The second move rewrites bit 4 without an
    edge, sees the old bit 12 at once, and returns 0 with only the first target latched. -/
def abandonFates (n : Nat) : Fate :=
  if 4 ≤ n ∧ n < 54 then ⟨if n = 4 then [.rise] else [], true, false, 0⟩
  else if n = 60 then ⟨[.fall], true, true, 0⟩
  else ⟨[], true, true, 0⟩

theorem abandoned_move_credits_next :
    (runDrive abandonFates
      (do let _ ← execute_position_move 1000; execute_position_move 2000) enabledDrive 0).1 = 0 ∧
    (runDrive abandonFates
      (do let _ ← execute_position_move 1000; execute_position_move 2000) enabledDrive 0).2.2.latched =
      [1000] := by
  decide

/-! ## §5. The control words a move writes. -/

theorem or_bit4_clear (cw : BitVec 32) : (cw ||| 0x10) &&& ~~~0x10 = cw &&& ~~~0x10 := by
  ext i
  simp only [BitVec.getLsbD_and, BitVec.getLsbD_or, BitVec.getLsbD_not]
  cases (0x10 : BitVec 32).getLsbD i <;> simp

/-- The two control words of a move differ from the word it read in bit 4 only. -/
theorem bit4_only_of_mem {cw w : BitVec 32} (h : w ∈ [cw ||| 0x10, releaseWord cw]) :
    w &&& ~~~0x10 = cw &&& ~~~0x10 := by
  simp only [List.mem_cons, List.not_mem_nil, or_false] at h
  rcases h with rfl | rfl
  · exact or_bit4_clear cw
  · rw [releaseWord, BitVec.and_assoc, BitVec.and_self, or_bit4_clear]

/-- Every control word a move writes differs in bit 4 only from the value its step-2 read
    returned, whatever that read returned. -/
theorem MoveRun.control_writes {p : BitVec 32} {r : Int} {t : List Exchange} (h : MoveRun p r t) :
    writesTo 0x6040 t = [] ∨
      ∃ pos a cw t', t = (posRead, pos) :: (targetWrite p, some a) :: (cwRead, some cw) :: t' ∧
        ∀ w ∈ writesTo 0x6040 t, w &&& ~~~0x10 = cw &&& ~~~0x10 := by
  have hms : ∀ {ms : List Exchange}, (∀ e ∈ ms, Missed bit12Set e) →
      writesTo 0x6040 ms = [] :=
    fun hm => writesTo_of_statusReads (fun e he => (hm e he).1) _
  cases h with
  | out_of_range => exact .inl rfl
  | target_failed => exact .inl (by simp [posRead, targetWrite])
  | read_failed => exact .inl (by simp [posRead, targetWrite, cwRead])
  | set_failed pos a cw =>
    refine .inr ⟨pos, a, cw, _, rfl, fun w hw => bit4_only_of_mem ?_⟩
    have e : writesTo 0x6040 [(posRead, pos), (targetWrite p, some a), (cwRead, some cw),
        (cwWrite (cw ||| 0x10), none)] = [cw ||| 0x10] := by
      simp [posRead, targetWrite, cwRead, cwWrite]
    rw [e] at hw
    obtain rfl := List.mem_singleton.mp hw
    exact List.mem_cons_self _ _
  | ack_timeout pos a cw b misses _ _ hm =>
    refine .inr ⟨pos, a, cw, _, rfl, fun w hw => bit4_only_of_mem ?_⟩
    have e : writesTo 0x6040 (armed p pos a cw b ++ misses) = [cw ||| 0x10] := by
      rw [writesTo_append, hms hm, List.append_nil]
      simp [armed, posRead, targetWrite, cwRead, cwWrite]
    rw [e] at hw
    obtain rfl := List.mem_singleton.mp hw
    exact List.mem_cons_self _ _
  | release_failed pos a cw b sw misses _ _ hm =>
    refine .inr ⟨pos, a, cw, _, rfl, fun w hw => bit4_only_of_mem ?_⟩
    have e : writesTo 0x6040 (armed p pos a cw b ++ misses ++
        [(statusRead, some sw), (cwWrite (releaseWord cw), none)]) =
        [cw ||| 0x10, releaseWord cw] := by
      rw [writesTo_append, writesTo_append, hms hm, List.append_nil]
      simp [armed, posRead, targetWrite, cwRead, cwWrite, statusRead]
    rwa [e] at hw
  | accepted pos a cw b sw c misses rest _ _ hm _ hs =>
    refine .inr ⟨pos, a, cw, _, rfl, fun w hw => bit4_only_of_mem ?_⟩
    have e : writesTo 0x6040 (armed p pos a cw b ++ misses ++
        [(statusRead, some sw), (cwWrite (releaseWord cw), some c)] ++ rest) =
        [cw ||| 0x10, releaseWord cw] := by
      rw [writesTo_append, writesTo_append, writesTo_append, hms hm, hs.writesTo_eq_nil,
        List.append_nil, List.append_nil]
      simp [armed, posRead, targetWrite, cwRead, cwWrite, statusRead]
    rwa [e] at hw

theorem move_keeps_control_bits (fates : Nat → Fate) (p : BitVec 32) (d : Drive) (n : Nat) :
    ∀ w ∈ writesTo 0x6040 (runDrive fates (execute_position_move p) d n).2.1,
      w &&& ~~~0x10 = d.control_word &&& ~~~0x10 := by
  have hm := execute_position_move_path (path_runDrive fates (execute_position_move p) d n)
  have hf := follows_runDrive fates (execute_position_move p) d n
  generalize (runDrive fates (execute_position_move p) d n).2.1 = t at hm hf ⊢
  rcases hm.control_writes with h | ⟨pos, a, cw, t', rfl, hw⟩
  · rw [h]
    exact fun w hw => absurd hw (List.not_mem_nil w)
  · rw [← hf.read_control_word]
    exact hw

theorem prompt_move_keeps_control_bits :
    (0x1F : BitVec 32) ∈ writesTo 0x6040
        (runDrive promptFates (execute_position_move 1000) enabledDrive 0).2.1 ∧
      (0x1F : BitVec 32) &&& ~~~0x10 = enabledDrive.control_word &&& ~~~0x10 :=
  have h : (0x1F : BitVec 32) ∈ writesTo 0x6040
      (runDrive promptFates (execute_position_move 1000) enabledDrive 0).2.1 := by decide
  ⟨h, move_keeps_control_bits promptFates 1000 enabledDrive 0 _ h⟩

/-! ## §6. The displacement of step 7. -/

/-- Every transaction succeeds at once, as in `promptFates`, except the first, the read of the
    actual position, which is lost. -/
def lostFirstFates (n : Nat) : Fate :=
  if n = 0 then ⟨[], false, false, 0⟩ else promptFates n

/-- The first read of the actual position is lost and everything else succeeds: the move
    returns 0, and step 7 prints a displacement computed from a `current_position` that no
    read assigned.  Readings `0x80000000` then `0x7FFFFFFF` overflow the subtraction. -/
theorem displacement_from_unread_position :
    (runDrive lostFirstFates (execute_position_move 1000) enabledDrive 0).2.1.head? =
        some (posRead, none) ∧
      (runDrive lostFirstFates (execute_position_move 1000) enabledDrive 0).1 = 0 ∧
      ((.report (.displacement none 0), none) : Exchange) ∈
        (runDrive lostFirstFates (execute_position_move 1000) enabledDrive 0).2.1 ∧
      position_change none 0 = none ∧ position_change (some 0x80000000) 0x7FFFFFFF = none := by
  decide

/-! ## §7. A move on a reliable bus.

  The results above hold whatever the bus does.  On a bus that loses nothing, a move from a
  drive ready for a set-point succeeds or fails on the drive's timing alone: the bit-4 write
  always latches the target, and the call returns 0 exactly when bit 12 rises before one of the
  50 status reads of step 4 (transactions `n + 4` to `n + 53` of a move starting at `n`). -/

/-- Every request reaches the drive, and every response reaches the client in time. -/
def Reliable (fates : Nat → Fate) : Prop :=
  ∀ n, (fates n).delivered = true ∧ (fates n).answered = true

/-- The wait of step 4 on a reliable bus, from a drive holding bit 4 for a pending set-point:
    it ends early exactly when one of its reads follows a rise of bit 12, and latches nothing. -/
theorem wait_status_armed (fates : Nat → Fate) (hr : Reliable fates) :
    ∀ (m c : Nat) (d : Drive) (i : Nat), newSetPoint d.control_word = true → d.pending = true →
      d.ack = false →
      ((runDrive fates (wait_status bit12Set m c) d i).1 < c + m ↔
          ∃ j < m, Spont.rise ∈ (fates (i + j)).before) ∧
        (runDrive fates (wait_status bit12Set m c) d i).2.2.latched = d.latched
  | 0, c, d, i, _, _, _ => by simp [wait_status, runDrive]
  | m + 1, c, d, i, h4, hpend, h12 => by
    simp only [wait_status, read_sdo, Prog.call_bind, Prog.bind, runDrive, Drive.transact,
      (hr i).1, (hr i).2, Bool.and_self, if_true, Drive.settle_armed _ d h4 hpend h12]
    by_cases hrise : Spont.rise ∈ (fates i).before
    · simp only [hrise, if_true, bit12Set_value, Prog.pure_eq, runDrive]
      exact ⟨iff_of_true (by omega) ⟨0, by omega, hrise⟩, trivial⟩
    · simp only [hrise, if_false, bit12Set_value, h12, Bool.false_eq_true]
      obtain ⟨ih, hl⟩ := wait_status_armed fates hr m (c + 1) d (i + 1) h4 hpend h12
      refine ⟨?_, hl⟩
      rw [show c + (m + 1) = c + 1 + m by omega, ih]
      constructor
      · rintro ⟨j, hj, h⟩
        exact ⟨j + 1, by omega, by rwa [show i + (j + 1) = i + 1 + j by omega]⟩
      · rintro ⟨_ | j, hj, h⟩
        · exact absurd h hrise
        · exact ⟨j, by omega, by rwa [show i + 1 + j = i + (j + 1) by omega]⟩

/-- The tail of a move after its release write returns 0 and latches nothing, on any bus. -/
theorem settle_runDrive (fates : Nat → Fate) (cur : Answer) (d : Drive) (n : Nat) :
    let r := runDrive fates (wait_status bit12Clear 50 0 >>= fun _ =>
      check_position_change cur >>= fun _ => print_command_help >>= fun _ => pure (0 : Int)) d n
    r.1 = 0 ∧ r.2.2.latched = d.latched :=
  have hs := settle_path (path_runDrive fates _ d n)
  ⟨hs.1, (follows_runDrive fates _ d n).latched_eq hs.2.canLatch⟩

/-- On a reliable bus, from an enabled drive waiting for a set-point (Enable Operation, bit 4
    and bit 12 clear, none pending), a move to any target in range latches that target, and
    returns 0 when bit 12 rises before one of the status reads of step 4 and −1 when it does
    not. -/
theorem reliable_move_outcome (fates : Nat → Fate) (hr : Reliable fates) {p : BitVec 32}
    (hp : InRange p) (d : Drive) (n : Nat) (hcw : enabledIdle d.control_word = true)
    (h12 : d.ack = false) (hpend : d.pending = false) :
    (runDrive fates (execute_position_move p) d n).1 =
        (if ∃ j < 50, Spont.rise ∈ (fates (n + 4 + j)).before then 0 else -1) ∧
      (runDrive fates (execute_position_move p) d n).2.2.latched = d.latched ++ [p] := by
  have h4 := newSetPoint_of_enabledIdle hcw
  unfold execute_position_move
  rw [if_neg (not_lt.mpr hp.2), if_neg (not_lt.mpr hp.1)]
  -- Steps 0–3: the drive stays still until the bit-4 write latches the target.  The wait is
  -- kept folded, so that only these four requests are unfolded.
  generalize hw : wait_status bit12Set 50 0 = w
  simp only [read_sdo, write_sdo, Prog.call_bind, Prog.pure_bind, runDrive, Drive.transact,
    (hr _).1, (hr _).2, Bool.and_self, if_true, Drive.deliver_target, Drive.settle_quiet, h12,
    hpend, Drive.value_control_word, Drive.deliver_edge, h4, newSetPoint_or_bit4,
    Option.isSome_some, lt_self_iff_false, if_false]
  subst hw
  -- Step 4.
  rw [runDrive_bind]
  obtain ⟨hwait, hl⟩ := wait_status_armed fates hr 50 0
    ⟨d.control_word ||| 0x10, p, false, true, d.latched ++ [p]⟩ (n + 1 + 1 + 1 + 1)
    (newSetPoint_or_bit4 _) rfl rfl
  rw [show n + 1 + 1 + 1 + 1 = n + 4 by omega] at hwait ⊢
  generalize runDrive fates (wait_status bit12Set 50 0) _ (n + 4) = r at hwait hl ⊢
  dsimp only
  by_cases h : ∃ j < 50, Spont.rise ∈ (fates (n + 4 + j)).before
  · -- Steps 5–7: the release write latches nothing, and the tail returns 0.
    have hlt : ¬ 50 ≤ r.1 := by have := hwait.mpr h; omega
    rw [if_pos h, if_neg hlt, runDrive]
    simp only [Drive.transact, (hr _).1, (hr _).2, Bool.and_self, if_true, Option.isSome_some,
      lt_self_iff_false, if_false]
    have hD : ((r.2.2.settle (fates (n + 4 + r.2.1.length)).before).deliver 0x6040
        (releaseWord d.control_word)).latched = d.latched ++ [p] := by
      rw [Drive.latched_deliver (by simp [newSetPoint_releaseWord]),
        (Drive.settle_fields _ _).2.2, hl]
    exact (settle_runDrive fates _ _ _).imp_right fun h => h.trans hD
  · have hge : 50 ≤ r.1 := by have := mt hwait.mp h; omega
    simp only [h, if_false, hge, if_true, Prog.pure_eq, runDrive]
    exact ⟨trivial, hl⟩

/-- `promptFates` is reliable, and bit 12 rises before the first status read of the move. -/
theorem prompt_move_acknowledged :
    Reliable promptFates ∧ InRange 1000 ∧ enabledIdle enabledDrive.control_word = true ∧
      enabledDrive.ack = false ∧ enabledDrive.pending = false ∧
      (runDrive promptFates (execute_position_move 1000) enabledDrive 0).1 =
          (if ∃ j < 50, Spont.rise ∈ (promptFates (0 + 4 + j)).before then 0 else -1) ∧
        (runDrive promptFates (execute_position_move 1000) enabledDrive 0).2.2.latched =
          enabledDrive.latched ++ [1000] :=
  have hr : Reliable promptFates := fun _ => ⟨rfl, rfl⟩
  ⟨hr, by decide, by decide, rfl, rfl,
    reliable_move_outcome promptFates hr (by decide) enabledDrive 0 (by decide) rfl rfl⟩

/-- A drive that never raises bit 12 on a reliable bus: the move reports failure, yet the
    target is latched. -/
example :
    let r := runDrive (fun _ => ⟨[], true, true, 0⟩) (execute_position_move 1000) enabledDrive 0
    r.1 = -1 ∧ r.2.2.latched = [1000] := by
  decide

end ErobCanopen
