/-
  ErobCanopen.Drive.Move
  ──────────────────────
  **`execute_position_move`: THE NEW-SET-POINT HANDSHAKE OF PROFILE POSITION MODE.**

  The routine checks the target against `[MIN_POSITION, MAX_POSITION]`, reads the actual
  position, writes the target (`0x607A`), reads the control word, writes it back with bit 4
  set, waits (at most 50 status reads) for status bit 12, writes the control word with bit 4
  cleared, waits (at most 50 reads, not fatal) for bit 12 to clear, re-reads the position and
  prints the displacement, and finally reprints the help banner.  `position_change` is the
  `int` arithmetic of that displacement line.

  `MoveRun` lists every way one call can go, with the exact exchanges it makes;
  `execute_position_move_path` proves that every path of the routine is one of them.  All
  later properties of moves are read off `MoveRun` without unfolding the routine again.
-/
import ErobCanopen.Sdo.Program

namespace ErobCanopen

/-! ## §1. The routine. -/

/-- `MOTOR_RESOLUTION`: encoder counts per revolution. -/
def MOTOR_RESOLUTION : Int := 524288

/-- `MAX_POSITION`: two revolutions. -/
def MAX_POSITION : Int := MOTOR_RESOLUTION * 2

/-- `MIN_POSITION`: minus two revolutions. -/
def MIN_POSITION : Int := -MOTOR_RESOLUTION * 2

/-- The range check of `execute_position_move`, on the `int32_t` target. -/
def InRange (target_position : BitVec 32) : Prop :=
  MIN_POSITION ≤ target_position.toInt ∧ target_position.toInt ≤ MAX_POSITION

instance (p : BitVec 32) : Decidable (InRange p) := inferInstanceAs (Decidable (_ ∧ _))

/-- `print_command_help`: one read of the actual position for the banner. -/
def print_command_help : Prog Unit := do
  let _ ← read_sdo 0x6064 0
  pure ()

/-- `status_word & 0x1000` is set: the drive acknowledged the set-point. -/
def bit12Set (status_word : BitVec 32) : Bool := status_word &&& 0x1000 != 0

/-- `!(status_word & 0x1000)`: the acknowledge bit is clear. -/
def bit12Clear (status_word : BitVec 32) : Bool := status_word &&& 0x1000 == 0

/-- The status-word waits of steps 4 and 6:
    `while (timeout_count < 50) { if (read ok && done(status_word)) break; timeout_count++; }`.
    `remaining` is the number of iterations left, `50 - timeout_count`; the value is the final
    `timeout_count`. -/
def wait_status (done : BitVec 32 → Bool) : (remaining timeout_count : Nat) → Prog Nat
  | 0, timeout_count => pure timeout_count
  | remaining + 1, timeout_count => do
    match ← read_sdo 0x6041 0 with
    | some status_word =>
      if done status_word then pure timeout_count
      else wait_status done remaining (timeout_count + 1)
    | none => wait_status done remaining (timeout_count + 1)

/-- Step 7: re-read the actual position and print its change from `current_position`. -/
def check_position_change (current_position : Answer) : Prog Unit := do
  match ← read_sdo 0x6064 0 with
  | some new_position => report (.displacement current_position new_position)
  | none => pure ()

/-- What step 7 prints from its two readings: `position_change = (int32_t)new_position -
    (int32_t)current_position` and whether `abs(position_change) < 100`, in C `int`.  `none`
    when `current_position` was never assigned (its read failed), or when the subtraction or
    `abs` overflows. -/
def position_change (current_position : Option (BitVec 32)) (new_position : BitVec 32) :
    Option (Int × Bool) :=
  match current_position with
  | none => none
  | some current_position =>
    let d := new_position.toInt - current_position.toInt
    if d ≤ -2 ^ 31 ∨ 2 ^ 31 ≤ d then none else some (d, d.natAbs < 100)

/-- `execute_position_move(sock, target_position)` — immediate-update mode. -/
def execute_position_move (target_position : BitVec 32) : Prog Int :=
  if MAX_POSITION < target_position.toInt then pure (-1)
  else if target_position.toInt < MIN_POSITION then pure (-1)
  else do
    let current_position ← read_sdo 0x6064 0
    -- 1. Update position parameters
    if (← write_sdo 0x607A 0 target_position) < 0 then pure (-1) else do
    -- 2. Read current control word
    match ← read_sdo 0x6040 0 with
    | none => pure (-1)
    | some current_control_word => do
    -- 3. Set control word bit4=1 (new position instruction)
    let new_control_word := current_control_word ||| 0x10
    if (← write_sdo 0x6040 0 new_control_word) < 0 then pure (-1) else do
    -- 4. Wait for status word bit12=1 (instruction received)
    let timeout_count ← wait_status bit12Set 50 0
    if 50 ≤ timeout_count then pure (-1) else do
    -- 5. Set control word bit4=0 (release position instruction data)
    let release_control_word := new_control_word &&& ~~~0x10
    if (← write_sdo 0x6040 0 release_control_word) < 0 then pure (-1) else do
    -- 6. Wait for status word bit12=0; a timeout here is not an error
    let _ ← wait_status bit12Clear 50 0
    -- 7. Check position change
    check_position_change current_position
    print_command_help
    pure 0

/-! ## §2. The exchanges of a move. -/

/-- A read of the actual position `0x6064`. -/
def posRead : Op := .read 0x6064 0

/-- A read of the status word `0x6041`. -/
def statusRead : Op := .read 0x6041 0

/-- A read of the control word `0x6040`. -/
def cwRead : Op := .read 0x6040 0

/-- A write of the control word `0x6040`. -/
def cwWrite (w : BitVec 32) : Op := .write 0x6040 0 w

/-- A write of the target position `0x607A`. -/
def targetWrite (p : BitVec 32) : Op := .write 0x607A 0 p

/-- The release word of step 5, `(cw | 0x10) & ~0x10`. -/
def releaseWord (cw : BitVec 32) : BitVec 32 := (cw ||| 0x10) &&& ~~~0x10

/-- A status read that does not end a wait for `done`: it failed, or its word fails `done`. -/
def Missed (done : BitVec 32 → Bool) (e : Exchange) : Prop :=
  e.1 = statusRead ∧ ∀ sw, e.2 = some sw → done sw = false

/-- Steps 0–3 answered: the position read (any answer), then a successful target write,
    control-word read and bit-4-set write. -/
def armed (p : BitVec 32) (pos : Answer) (a cw b : BitVec 32) : List Exchange :=
  [(posRead, pos), (targetWrite p, some a), (cwRead, some cw), (cwWrite (cw ||| 0x10), some b)]

/-- The tail of an accepted move: the bit-12-clear wait (at most 50 status reads), the
    position re-read with its displacement line, and the read of `print_command_help`. -/
inductive Settle (current_position : Answer) : List Exchange → Prop where
  | unread (w : List Exchange) (pos2 : Answer) :
      w.length ≤ 50 → (∀ e ∈ w, e.1 = statusRead) →
      Settle current_position (w ++ [(posRead, none), (posRead, pos2)])
  | reread (w : List Exchange) (new_position : BitVec 32) (ack pos2 : Answer) :
      w.length ≤ 50 → (∀ e ∈ w, e.1 = statusRead) →
      Settle current_position (w ++ [(posRead, some new_position),
        (.report (.displacement current_position new_position), ack), (posRead, pos2)])

/-- Every way one call of `execute_position_move p` can go: its result and its exchanges. -/
inductive MoveRun (p : BitVec 32) : Int → List Exchange → Prop where
  | out_of_range : ¬ InRange p → MoveRun p (-1) []
  | target_failed (pos : Answer) : InRange p →
      MoveRun p (-1) [(posRead, pos), (targetWrite p, none)]
  | read_failed (pos : Answer) (a : BitVec 32) : InRange p →
      MoveRun p (-1) [(posRead, pos), (targetWrite p, some a), (cwRead, none)]
  | set_failed (pos : Answer) (a cw : BitVec 32) : InRange p →
      MoveRun p (-1)
        [(posRead, pos), (targetWrite p, some a), (cwRead, some cw), (cwWrite (cw ||| 0x10), none)]
  | ack_timeout (pos : Answer) (a cw b : BitVec 32) (misses : List Exchange) : InRange p →
      misses.length = 50 → (∀ e ∈ misses, Missed bit12Set e) →
      MoveRun p (-1) (armed p pos a cw b ++ misses)
  | release_failed (pos : Answer) (a cw b sw : BitVec 32) (misses : List Exchange) :
      InRange p → misses.length < 50 → (∀ e ∈ misses, Missed bit12Set e) → bit12Set sw →
      MoveRun p (-1) (armed p pos a cw b ++ misses ++
        [(statusRead, some sw), (cwWrite (releaseWord cw), none)])
  | accepted (pos : Answer) (a cw b sw c : BitVec 32) (misses rest : List Exchange) :
      InRange p → misses.length < 50 → (∀ e ∈ misses, Missed bit12Set e) → bit12Set sw →
      Settle pos rest →
      MoveRun p 0 (armed p pos a cw b ++ misses ++
        [(statusRead, some sw), (cwWrite (releaseWord cw), some c)] ++ rest)

/-! ## §3. Every path is a `MoveRun`. -/

/-- What a status wait with `n` iterations left, started at `timeout_count = c`, can do:
    miss every read and end at `c + n`, or miss some and end on a read satisfying `done`. -/
inductive WaitRun (done : BitVec 32 → Bool) (n c : Nat) : Nat → List Exchange → Prop where
  | exhausted (misses : List Exchange) : misses.length = n → (∀ e ∈ misses, Missed done e) →
      WaitRun done n c (c + n) misses
  | found (misses : List Exchange) (sw : BitVec 32) : misses.length < n →
      (∀ e ∈ misses, Missed done e) → done sw = true →
      WaitRun done n c (c + misses.length) (misses ++ [(statusRead, some sw)])

theorem WaitRun.cons {done : BitVec 32 → Bool} {n c k : Nat} {t : List Exchange} {e : Exchange}
    (he : Missed done e) (hw : WaitRun done n (c + 1) k t) : WaitRun done (n + 1) c k (e :: t) := by
  cases hw with
  | exhausted _ hlen hm =>
    rw [show c + 1 + n = c + (n + 1) by omega]
    exact .exhausted _ (by simp [hlen]) (List.forall_mem_cons.mpr ⟨he, hm⟩)
  | found ms sw hlen hm hsw =>
    have h := @WaitRun.found done (n + 1) c (e :: ms) sw (by simp; omega)
      (List.forall_mem_cons.mpr ⟨he, hm⟩) hsw
    rwa [List.length_cons, Nat.add_comm ms.length 1, ← Nat.add_assoc, List.cons_append] at h

/-- Every read of a status wait is a status read, and there are at most `n` of them. -/
theorem WaitRun.reads {done : BitVec 32 → Bool} {n c k : Nat} {t : List Exchange}
    (hw : WaitRun done n c k t) : t.length ≤ n ∧ ∀ e ∈ t, e.1 = statusRead := by
  cases hw with
  | exhausted ms hlen hm => exact ⟨hlen.le, fun e he => (hm e he).1⟩
  | found ms sw hlen hm _ =>
    refine ⟨by simp; omega, fun e he => ?_⟩
    rcases List.mem_append.mp he with he | he
    · exact (hm e he).1
    · simp only [List.mem_singleton] at he; rw [he]

theorem wait_status_path {done : BitVec 32 → Bool} :
    ∀ {n c k : Nat} {t : List Exchange}, Prog.Path (wait_status done n c) k t →
      WaitRun done n c k t
  | 0, c, k, t, hp => by
    obtain ⟨rfl, rfl⟩ := Prog.Path.pure_inv hp
    exact .exhausted [] rfl (by simp)
  | n + 1, c, k, t, hp => by
    simp only [wait_status, read_sdo, Prog.call_bind, Prog.pure_bind] at hp
    obtain ⟨r, t', rfl, hk⟩ := hp.call_inv
    cases r with
    | none => exact (wait_status_path hk).cons ⟨rfl, by simp⟩
    | some sw =>
      by_cases hd : done sw
      · simp only [hd, if_true] at hk
        obtain ⟨rfl, rfl⟩ := Prog.Path.pure_inv hk
        exact .found [] sw (by simp) (by simp) hd
      · simp only [hd] at hk
        exact (wait_status_path hk).cons ⟨rfl, by simpa using hd⟩

/-- The tail after a successful release write: every path returns 0 and is a `Settle`. -/
theorem settle_path {cur : Answer} {r : Int} {t : List Exchange}
    (hp : Prog.Path (wait_status bit12Clear 50 0 >>= fun _ =>
      check_position_change cur >>= fun _ => print_command_help >>= fun _ => pure 0) r t) :
    r = 0 ∧ Settle cur t := by
  obtain ⟨k, w, t1, rfl, hw, hp1⟩ := hp.bind_inv
  obtain ⟨hwl, hws⟩ := (wait_status_path hw).reads
  obtain ⟨u, t2, t3, rfl, hc, hp2⟩ := hp1.bind_inv
  simp only [check_position_change, read_sdo, Prog.call_bind, Prog.pure_bind] at hc
  simp only [print_command_help, read_sdo, Prog.call_bind, Prog.pure_bind] at hp2
  obtain ⟨np, t4, rfl, hc1⟩ := hc.call_inv
  obtain ⟨p2, t5, rfl, hp3⟩ := hp2.call_inv
  obtain ⟨rfl, rfl⟩ := Prog.Path.pure_inv hp3
  refine ⟨rfl, ?_⟩
  cases np with
  | none =>
    obtain ⟨-, rfl⟩ := Prog.Path.pure_inv hc1
    simpa using Settle.unread w p2 hwl hws
  | some new =>
    obtain ⟨ack, t6, rfl, hc2⟩ := hc1.call_inv
    obtain ⟨-, rfl⟩ := Prog.Path.pure_inv hc2
    simpa using Settle.reread w new ack p2 hwl hws

theorem execute_position_move_path {p : BitVec 32} {r : Int} {t : List Exchange}
    (hp : Prog.Path (execute_position_move p) r t) : MoveRun p r t := by
  unfold execute_position_move at hp
  by_cases hin : InRange p
  · have h1 : ¬ MAX_POSITION < p.toInt := not_lt.mpr hin.2
    have h2 : ¬ p.toInt < MIN_POSITION := not_lt.mpr hin.1
    simp only [h1, h2, if_false, read_sdo, write_sdo, Prog.call_bind, Prog.pure_bind] at hp
    obtain ⟨pos, t1, rfl, hp1⟩ := hp.call_inv
    obtain ⟨wa, t2, rfl, hp2⟩ := hp1.call_inv
    cases wa with
    | none =>
      simp at hp2
      obtain ⟨rfl, rfl⟩ := Prog.Path.pure_inv hp2
      exact .target_failed pos hin
    | some a =>
    simp at hp2
    obtain ⟨rc, t3, rfl, hp3⟩ := hp2.call_inv
    cases rc with
    | none =>
      obtain ⟨rfl, rfl⟩ := Prog.Path.pure_inv hp3
      exact .read_failed pos a hin
    | some cw =>
    obtain ⟨wb, t4, rfl, hp4⟩ := hp3.call_inv
    cases wb with
    | none =>
      simp at hp4
      obtain ⟨rfl, rfl⟩ := Prog.Path.pure_inv hp4
      exact .set_failed pos a cw hin
    | some b =>
    simp at hp4
    obtain ⟨k, w, t5, rfl, hw, hp5⟩ := hp4.bind_inv
    cases wait_status_path hw with
    | exhausted _ hlen hm =>
      simp at hp5
      obtain ⟨rfl, rfl⟩ := Prog.Path.pure_inv hp5
      simpa using MoveRun.ack_timeout pos a cw b _ hin hlen hm
    | found ms sw hlen hm hsw =>
      rw [Nat.zero_add, if_neg (by omega)] at hp5
      obtain ⟨wc, t6, rfl, hp6⟩ := hp5.call_inv
      cases wc with
      | none =>
        simp at hp6
        obtain ⟨rfl, rfl⟩ := Prog.Path.pure_inv hp6
        simpa [releaseWord] using MoveRun.release_failed pos a cw b sw _ hin hlen hm hsw
      | some c =>
        simp at hp6
        obtain ⟨rfl, hs⟩ := settle_path hp6
        simpa [releaseWord] using MoveRun.accepted pos a cw b sw c _ _ hin hlen hm hsw hs
  · have hout : MAX_POSITION < p.toInt ∨ p.toInt < MIN_POSITION := by
      unfold InRange at hin; omega
    rcases hout with h | h
    · rw [if_pos h] at hp
      obtain ⟨rfl, rfl⟩ := Prog.Path.pure_inv hp
      exact .out_of_range hin
    · have hm : MIN_POSITION < MAX_POSITION := by
        unfold MIN_POSITION MAX_POSITION MOTOR_RESOLUTION; omega
      rw [if_neg (by omega), if_pos h] at hp
      obtain ⟨rfl, rfl⟩ := Prog.Path.pure_inv hp
      exact .out_of_range hin
end ErobCanopen